import MartCommon.Common.StringView
import MartCommon.Library.Integral

namespace MartCommon.Common.ToIntegral

open Library

section Definitions

-- The arithmetic of the built-in types, which has no result where it is undefined.
variable (arithmetic : IntType → Int → Option Int) (type : Integral) (name : Text)

/-- The text of the exception, with the name that `typeid` gives the type. -/
def outOfRange (name str : Text) : Text :=
  ascii "String representing an integral (\"" ++ str ++ ascii "\") overflows type " ++ name

/-- The quick check against a constant, and the exact one behind it. -/
def overflows (tmp d : Int) : Option Bool :=
  if type.maxValue.tdiv 16 ≤ tmp then
    (arithmetic type.promoted (type.maxValue - d)).map fun left => decide (left.tdiv 10 < tmp)
  else some false

def coreLoop (str : Text) : Int → Text → Option (Except Text Int)
  | tmp, [] => some (.ok tmp)
  | tmp, c :: rest =>
      -- A character above 127 is no digit, as an unsigned and as a negative `char`.
      (arithmetic .int (c.toNat - 48)).bind fun d =>
        if d < 0 ∨ 9 < d then some (.ok tmp)
        else
          (overflows arithmetic type tmp d).bind fun tooLarge =>
            if tooLarge then some (.error (outOfRange name str))
            else
              (arithmetic type.promoted (tmp * 10)).bind fun scaled =>
                (arithmetic type.promoted (scaled + d)).bind fun sum =>
                  coreLoop str (type.convert sum) rest

/-- `details_to_integral::core<T>` -/
def core (str : Text) : Option (Except Text Int) := coreLoop arithmetic type name str 0 str

/-- `return -core<T>( str )` -/
def negated (str : Text) : Option (Except Text Int) :=
  (core arithmetic type name str).bind fun parsed =>
    match parsed with
    | .ok value => (arithmetic type.promoted (-value)).map fun negative => .ok (type.convert negative)
    | .error text => some (.error text)

/-- `details_to_integral::base<T>`, for unsigned and for signed types. -/
def base (str : Text) : Option (Except Text Int) :=
  if type.signed then
    if str.head? = some 45 then negated arithmetic type name (str.drop 1)
    else if str.head? = some 43 then core arithmetic type name (str.drop 1)
    else core arithmetic type name str
  else if str.head? = some 43 then core arithmetic type name (str.drop 1)
  else core arithmetic type name str

def toIntegral (str : Text) : Option (Except Text Int) :=
  if str.length = 0 then some (.ok 0) else base arithmetic type name str

/-- `value = value * 10 + c - '0'` -/
def unsafeStep (value : Int) (c : UInt8) : Option Int :=
  (arithmetic type.promoted (value * 10)).bind fun scaled =>
    (arithmetic type.promoted (scaled + c.toNat)).bind fun added =>
      (arithmetic type.promoted (added - 48)).map type.convert

def toIntegralUnsafe (str : Text) : Option Int := str.foldlM (unsafeStep arithmetic type) 0

end Definitions

/-- An arithmetic computes what the types represent. -/
def Correct (arithmetic : IntType → Int → Option Int) : Prop :=
  ∀ type value, type.InRange value → arithmetic type value = some value

theorem correct_result : Correct IntType.result := fun _ _ => IntType.result_of_inRange

theorem correct_exact : Correct IntType.exact := fun _ _ => IntType.exact_of_inRange

variable {arithmetic : IntType → Int → Option Int} {name str rest : Text} {c : UInt8} {tmp : Nat}

theorem Correct.code (correct : Correct arithmetic) (c : UInt8) :
    arithmetic .int (c.toNat - 48) = some ((c.toNat : Int) - 48) := by
  refine correct _ _ (IntType.inRange_int.mpr ?_)
  have small := c.toNat_lt
  omega

/-- The loop ends before the first character that is no digit. -/
theorem coreLoop_other (correct : Correct arithmetic) (type : Integral) (tmp : Int)
    (other : Decimal.isDigit c = false) :
    coreLoop arithmetic type name str tmp (c :: rest) = some (.ok tmp) := by
  have outside : (c.toNat : Int) - 48 < 0 ∨ 9 < (c.toNat : Int) - 48 := by
    by_contra inside
    have digit : Decimal.isDigit c = true := Decimal.isDigit_iff_toNat.mpr (by omega)
    rw [other] at digit
    contradiction
  rw [coreLoop, correct.code, Option.bind_some, if_pos outside]

/-- A digit is subject to the overflow check. -/
theorem coreLoop_digit (correct : Correct arithmetic) (type : Integral)
    (digit : Decimal.isDigit c = true) :
    coreLoop arithmetic type name str tmp (c :: rest) =
      (overflows arithmetic type tmp (Decimal.digitValue c)).bind fun tooLarge =>
        if tooLarge then some (.error (outOfRange name str))
        else
          (arithmetic type.promoted (tmp * 10)).bind fun scaled =>
            (arithmetic type.promoted (scaled + Decimal.digitValue c)).bind fun sum =>
              coreLoop arithmetic type name str (type.convert sum) rest := by
  have code : (c.toNat : Int) - 48 = Decimal.digitValue c := by
    have ascii := Decimal.toNat_of_isDigit digit
    omega
  have small := Decimal.digitValue_lt digit
  rw [coreLoop, correct.code, Option.bind_some, code, if_neg (by omega)]

/-- A digit is added when the number stays in the range of the type. -/
theorem coreLoop_fits (correct : Correct arithmetic) (type : Integral)
    (digit : Decimal.isDigit c = true)
    (fits : ((tmp * 10 + Decimal.digitValue c : Nat) : Int) ≤ type.maxValue) :
    coreLoop arithmetic type name str tmp (c :: rest) =
      coreLoop arithmetic type name str (tmp * 10 + Decimal.digitValue c : Nat) rest := by
  have room : type.promoted.InRange (type.maxValue - Decimal.digitValue c) :=
    type.promoted_inRange (by omega) (by omega)
  have scaled : type.promoted.InRange ((tmp : Int) * 10) := type.promoted_inRange (by omega) (by omega)
  have added : type.promoted.InRange ((tmp : Int) * 10 + Decimal.digitValue c) :=
    type.promoted_inRange (by omega) (by omega)
  have passes : overflows arithmetic type tmp (Decimal.digitValue c) = some false := by
    rw [overflows]
    split
    · rw [correct _ _ room, Option.map_some, Option.some.injEq, decide_eq_false_iff_not, Int.not_lt,
        Int.tdiv_eq_ediv_of_nonneg (by omega)]
      omega
    · rfl
  rw [coreLoop_digit correct type digit, passes, Option.bind_some, if_neg Bool.false_ne_true,
    correct _ _ scaled, Option.bind_some, correct _ _ added, Option.bind_some,
    type.convert_of_le (by omega) (by omega)]
  norm_cast

/-- A digit that leads out of the range of an integer type is refused. -/
theorem coreLoop_tooLarge (correct : Correct arithmetic) (type : IntegerType)
    (digit : Decimal.isDigit c = true) (small : (tmp : Int) ≤ type.maxValue)
    (large : type.maxValue < (tmp * 10 + Decimal.digitValue c : Nat)) :
    coreLoop arithmetic (.integer type) name str tmp (c :: rest) =
      some (.error (outOfRange name str)) := by
  have most := type.le_maxValue
  have below := Decimal.digitValue_lt digit
  have room : (Integral.integer type).promoted.InRange (type.maxValue - Decimal.digitValue c) :=
    Integral.promoted_inRange (.integer type) (by omega) (by
      change _ ≤ type.maxValue
      omega)
  have refused : overflows arithmetic (.integer type) tmp (Decimal.digitValue c) = some true := by
    have near : type.maxValue.tdiv 16 ≤ tmp := by
      rw [Int.tdiv_eq_ediv_of_nonneg (by omega)]
      omega
    rw [overflows, Integral.maxValue, if_pos near, correct _ _ room, Option.map_some, Option.some.injEq,
      decide_eq_true_eq, Int.tdiv_eq_ediv_of_nonneg (by omega)]
    omega
  rw [coreLoop_digit correct _ digit, refused, Option.bind_some, if_pos rfl]

/-- What `core` should answer for a number. -/
def answer (type : Integral) (name str : Text) (number : Nat) : Except Text Int :=
  if number ≤ type.maxValue then .ok number else .error (outOfRange name str)

theorem answer_fits {type : Integral} {number : Nat} (fits : number ≤ type.maxValue) :
    answer type name str number = .ok number :=
  if_pos fits

theorem answer_large {type : Integral} {number : Nat} (large : type.maxValue < number) :
    answer type name str number = .error (outOfRange name str) :=
  if_neg (Int.not_le.mpr large)

/-- The loop reads digits whose number stays in the range of the type. -/
theorem coreLoop_ok (correct : Correct arithmetic) (type : Integral)
    (fits : Decimal.valueFrom tmp (rest.takeWhile Decimal.isDigit) ≤ type.maxValue) :
    coreLoop arithmetic type name str tmp rest =
      some (.ok (Decimal.valueFrom tmp (rest.takeWhile Decimal.isDigit))) := by
  induction rest generalizing tmp with
  | nil => rfl
  | cons c rest ih =>
      cases digit : Decimal.isDigit c with
      | false =>
          rw [coreLoop_other correct type tmp digit, List.takeWhile_cons_of_neg (by simp [digit])]
          rfl
      | true =>
          rw [List.takeWhile_cons_of_pos digit, Decimal.valueFrom_cons] at fits ⊢
          have grows := Decimal.le_valueFrom (tmp * 10 + Decimal.digitValue c)
            (rest.takeWhile Decimal.isDigit)
          rw [coreLoop_fits correct type digit (by omega)]
          exact ih fits

/-- For an integer type the check is exact, whatever the digits are. -/
theorem coreLoop_eq (correct : Correct arithmetic) (type : IntegerType) (small : tmp ≤ type.maxValue) :
    coreLoop arithmetic (.integer type) name str tmp rest =
      some (answer (.integer type) name str
        (Decimal.valueFrom tmp (rest.takeWhile Decimal.isDigit))) := by
  induction rest generalizing tmp with
  | nil =>
      rw [List.takeWhile_nil, Decimal.valueFrom_nil, answer_fits small]
      rfl
  | cons c rest ih =>
      cases digit : Decimal.isDigit c with
      | false =>
          rw [coreLoop_other correct _ tmp digit, List.takeWhile_cons_of_neg (by simp [digit]),
            Decimal.valueFrom_nil, answer_fits small]
      | true =>
          rw [List.takeWhile_cons_of_pos digit, Decimal.valueFrom_cons]
          by_cases fits : ((tmp * 10 + Decimal.digitValue c : Nat) : Int) ≤ type.maxValue
          · rw [coreLoop_fits correct (.integer type) digit fits]
            exact ih fits
          · have large := Int.not_le.mp fits
            have grows := Decimal.le_valueFrom (tmp * 10 + Decimal.digitValue c)
              (rest.takeWhile Decimal.isDigit)
            have beyond : (Integral.integer type).maxValue <
                Decimal.valueFrom (tmp * 10 + Decimal.digitValue c)
                  (rest.takeWhile Decimal.isDigit) := by
              change type.maxValue < _
              omega
            rw [coreLoop_tooLarge correct type digit small large, answer_large beyond]

/-- `core` reads the leading digits, refuses exactly the numbers beyond the maximum, and computes nothing
outside the range of its type. -/
def ChecksExactly (type : Integral) (name str : Text) : Prop :=
  core IntType.result type name str =
      some (answer type name str (Decimal.value (str.takeWhile Decimal.isDigit))) ∧
    core IntType.exact type name str = core IntType.result type name str

/-- The overflow check of `core` is exact for every integer type. -/
theorem core_checks_exactly (type : IntegerType) (name str : Text) :
    ChecksExactly (.integer type) name str := by
  have small : ((0 : Nat) : Int) ≤ type.maxValue := Int.le_trans (by decide) type.le_maxValue
  have result : core IntType.result (.integer type) name str = _ := coreLoop_eq correct_result type small
  have exact : core IntType.exact (.integer type) name str = _ := coreLoop_eq correct_exact type small
  exact ⟨result, exact.trans result.symm⟩

/-- For `bool` the difference in the exact check is negative. -/
theorem core_checks_bool : ¬ChecksExactly .bool (ascii "bool") (ascii "2") := by
  rintro ⟨result, -⟩
  have two : core IntType.result .bool (ascii "bool") (ascii "2") = some (.ok 1) := by rfl
  rw [two] at result
  have expected : answer .bool (ascii "bool") (ascii "2")
      (Decimal.value ((ascii "2").takeWhile Decimal.isDigit)) =
      .error (outOfRange (ascii "bool") (ascii "2")) := by rfl
  rw [expected] at result
  contradiction

/-- Leading digits are read up to the maximum, also for `bool`. -/
theorem core_ok (correct : Correct arithmetic) (type : Integral) {digits : Text}
    (all : ∀ char ∈ digits, Decimal.isDigit char = true) (behind : Decimal.NoDigitFirst rest)
    (fits : Decimal.value digits ≤ type.maxValue) :
    core arithmetic type name (digits ++ rest) = some (.ok (Decimal.value digits)) := by
  have leading := Decimal.takeWhile_digits all behind
  have read : core arithmetic type name (digits ++ rest) =
      some (.ok (Decimal.valueFrom 0 ((digits ++ rest).takeWhile Decimal.isDigit))) := by
    refine coreLoop_ok correct type ?_
    rw [leading]
    exact fits
  rw [read, leading, Decimal.valueFrom_zero]

theorem core_error (correct : Correct arithmetic) (type : IntegerType) {digits : Text}
    (all : ∀ char ∈ digits, Decimal.isDigit char = true) (behind : Decimal.NoDigitFirst rest)
    (large : type.maxValue < Decimal.value digits) :
    core arithmetic (.integer type) name (digits ++ rest) =
      some (.error (outOfRange name (digits ++ rest))) := by
  have leading := Decimal.takeWhile_digits all behind
  have small : ((0 : Nat) : Int) ≤ type.maxValue := Int.le_trans (by decide) type.le_maxValue
  have read : core arithmetic (.integer type) name (digits ++ rest) = _ := coreLoop_eq correct type small
  have beyond : (Integral.integer type).maxValue < Decimal.value digits := large
  rw [read, leading, Decimal.valueFrom_zero, answer_large beyond]

/-- Text that starts with a digit has no sign. -/
theorem base_digits (type : Integral) {digits : Text} (nonempty : digits ≠ [])
    (all : ∀ char ∈ digits, Decimal.isDigit char = true) :
    base arithmetic type name (digits ++ rest) = core arithmetic type name (digits ++ rest) := by
  cases digits with
  | nil => contradiction
  | cons char digits =>
      have digit := all char List.mem_cons_self
      have notMinus : char ≠ 45 := by
        rintro rfl
        contradiction
      have notPlus : char ≠ 43 := by
        rintro rfl
        contradiction
      rw [base, List.cons_append, List.head?_cons]
      simp only [Option.some.injEq, notMinus, notPlus, if_false, ite_self]

theorem toIntegral_digits (correct : Correct arithmetic) (type : Integral) {digits : Text}
    (nonempty : digits ≠ []) (all : ∀ char ∈ digits, Decimal.isDigit char = true)
    (behind : Decimal.NoDigitFirst rest) (fits : Decimal.value digits ≤ type.maxValue) :
    toIntegral arithmetic type name (digits ++ rest) = some (.ok (Decimal.value digits)) := by
  have filled : (digits ++ rest).length ≠ 0 := by
    rw [List.length_append]
    have positive := List.length_pos_iff.mpr nonempty
    omega
  rw [toIntegral, if_neg filled, base_digits type nonempty all, core_ok correct type all behind fits]

/-- A minus sign negates the number that follows. -/
theorem toIntegral_minus (type : IntegerType) (signed : type.signed = true) (str : Text) :
    toIntegral arithmetic (.integer type) name (45 :: str) =
      negated arithmetic (.integer type) name str := by
  have kind : (Integral.integer type).signed = true := signed
  rw [toIntegral, if_neg (by simp), base, if_pos kind, List.head?_cons, if_pos rfl, List.drop_one,
    List.tail_cons]

/-- A value that is not negative comes back from its digits. -/
theorem toIntegral_natural (type : Integral) {number : Nat} (fits : number ≤ type.maxValue)
    (behind : Decimal.NoDigitFirst rest) :
    toIntegral IntType.result type name (Decimal.render number ++ rest) = some (.ok number) := by
  have value := Decimal.value_render number
  have read : toIntegral IntType.result type name (Decimal.render number ++ rest) = _ :=
    toIntegral_digits correct_result type (Decimal.render_ne_nil number)
      (fun _ => Decimal.isDigit_of_mem_render) behind (by
        rw [value]
        exact fits)
  rw [read, value]

/-- A negative value comes back when its magnitude is a value of the type too. -/
theorem toIntegral_negative (type : IntegerType) (signed : type.signed = true) {number : Nat}
    (low : type.minValue ≤ -number) (behind : Decimal.NoDigitFirst rest) :
    toIntegral IntType.result (.integer type) name (45 :: Decimal.render number ++ rest) =
        some (.ok (-number)) ↔
      -(number : Int) ≠ type.minValue := by
  have value := Decimal.value_render number
  have all : ∀ char ∈ Decimal.render number, Decimal.isDigit char = true :=
    fun _ => Decimal.isDigit_of_mem_render
  have least := type.minValue_of_signed signed
  have most := type.le_maxValue
  rw [List.cons_append, toIntegral_minus type signed, negated]
  by_cases fits : (number : Int) ≤ type.maxValue
  · have inRange : type.InRange (-number : Int) := ⟨low, by omega⟩
    have read : core IntType.result (.integer type) name (Decimal.render number ++ rest) = _ :=
      core_ok correct_result (.integer type) all behind (by
        rw [value]
        exact fits)
    rw [read, value, Option.bind_some]
    have negative := IntType.result_of_inRange (type.promoted_inRange inRange)
    have converted := IntType.convert_of_inRange type.positive inRange
    refine iff_of_true ?_ (by omega)
    simp only [Integral.promoted, Integral.convert, negative, Option.map_some, converted]
  · have read : core IntType.result (.integer type) name (Decimal.render number ++ rest) = _ :=
      core_error correct_result type all behind (by
        rw [value]
        exact Int.not_le.mp fits)
    rw [read, Option.bind_some]
    refine iff_of_false ?_ (by omega)
    simp

/-- Each value comes back from its digits, but the least value of a signed type does not. -/
theorem toIntegral_renderInt (type : Integral) (name : Text) {value : Int}
    (low : type.minValue ≤ value) (high : value ≤ type.maxValue) {rest : Text}
    (behind : Decimal.NoDigitFirst rest) :
    toIntegral IntType.result type name (Decimal.renderInt value ++ rest) = some (.ok value) ↔
      ¬(type.signed = true ∧ value = type.minValue) := by
  by_cases negative : value < 0
  · obtain ⟨number, rfl⟩ := Int.exists_eq_neg_ofNat (Int.le_of_lt negative)
    cases type with
    | bool =>
        have low : (0 : Int) ≤ -number := low
        omega
    | integer type =>
        have signed : type.signed = true := by
          by_contra unsigned
          have least := type.minValue_of_unsigned (by simpa using unsigned)
          have low : type.minValue ≤ -number := low
          omega
        have kind : (Integral.integer type).signed = true := signed
        rw [Decimal.renderInt, if_pos negative, Int.natAbs_neg, Int.natAbs_natCast,
          toIntegral_negative type signed low behind, kind]
        simp only [true_and]
        exact Iff.rfl
  · obtain ⟨number, rfl⟩ := Int.eq_ofNat_of_zero_le (Int.not_lt.mp negative)
    rw [Decimal.renderInt, if_neg negative, Int.natAbs_natCast]
    refine iff_of_true (toIntegral_natural type high behind) ?_
    rintro ⟨signed, least⟩
    cases type with
    | bool => contradiction
    | integer type =>
        have below := type.minValue_of_signed signed
        have most := type.le_maxValue
        have least : (number : Int) = type.minValue := least
        omega

/-- The type `int` among the integral types. -/
def intType : IntegerType := ⟨.int, by decide⟩

theorem toIntegral_renderInt_negative :
    toIntegral IntType.result (.integer intType) (ascii "i")
        (Decimal.renderInt (-2147483647) ++ ascii "  ") = some (.ok (-2147483647)) ↔
      ¬((Integral.integer intType).signed = true ∧
        (-2147483647 : Int) = (Integral.integer intType).minValue) :=
  toIntegral_renderInt (.integer intType) (ascii "i") (by decide) (by decide) rfl

/-- The digits of the least `int` are refused. -/
theorem toIntegral_renderInt_least :
    (Integral.integer intType).minValue ≤ -2147483648 ∧
      (-2147483648 : Int) ≤ (Integral.integer intType).maxValue ∧ Decimal.NoDigitFirst [] ∧
      toIntegral IntType.result (.integer intType) (ascii "i") (Decimal.renderInt (-2147483648) ++ []) =
        some (.error (outOfRange (ascii "i") (ascii "2147483648"))) := by
  refine ⟨by decide, by decide, rfl, ?_⟩
  rfl

/-- The unchecked function computes the same as the function that wraps around, where it is defined. -/
theorem toIntegralUnsafe_agrees (type : IntegerType) {value : Int}
    (computed : toIntegralUnsafe IntType.result (.integer type) str = some value) :
    Common.toIntegralUnsafe type.toIntType str = value := by
  rw [toIntegralUnsafe] at computed
  rw [Common.toIntegralUnsafe]
  generalize (0 : Int) = start at computed ⊢
  induction str generalizing start with
  | nil => exact Option.some.inj computed
  | cons c rest ih =>
      rw [List.foldlM_cons] at computed
      obtain ⟨next, stepped, later⟩ := Option.bind_eq_some_iff.mp computed
      simp only [unsafeStep, Option.bind_eq_some_iff, Option.map_eq_some_iff] at stepped
      obtain ⟨scaled, first, added, second, difference, third, rfl⟩ := stepped
      have positive := type.positive_promoted
      rw [List.foldl_cons]
      simp only [IntType.convert_of_result positive first, IntType.convert_of_result positive second,
        IntType.convert_of_result positive third]
      exact ih _ later

/-- A digit is added when its code leaves room above the number. -/
theorem unsafeStep_fits (correct : Correct arithmetic) (type : Integral)
    (digit : Decimal.isDigit c = true)
    (fits : ((tmp * 10 + Decimal.digitValue c : Nat) : Int) ≤ type.maxValue)
    (room : ((tmp * 10 + Decimal.digitValue c : Nat) : Int) + 48 ≤ type.promoted.maxValue) :
    unsafeStep arithmetic type tmp c = some ((tmp * 10 + Decimal.digitValue c : Nat) : Int) := by
  have code := Decimal.toNat_of_isDigit digit
  have zero : type.promoted.InRange 0 := type.promoted_inRange (Int.le_refl 0) (by omega)
  have low := zero.1
  have scaled : type.promoted.InRange ((tmp : Int) * 10) := type.promoted_inRange (by omega) (by omega)
  have added : type.promoted.InRange ((tmp : Int) * 10 + c.toNat) := ⟨by omega, by omega⟩
  have difference : type.promoted.InRange ((tmp : Int) * 10 + c.toNat - 48) := ⟨by omega, by omega⟩
  have number : (tmp : Int) * 10 + c.toNat - 48 = (tmp * 10 + Decimal.digitValue c : Nat) := by omega
  rw [unsafeStep, correct _ _ scaled, Option.bind_some, correct _ _ added, Option.bind_some,
    correct _ _ difference, Option.map_some, number, type.convert_of_le (by omega) fits]

theorem unsafeLoop_ok (correct : Correct arithmetic) (type : Integral) (tmp : Nat)
    (all : ∀ char ∈ str, Decimal.isDigit char = true)
    (fits : Decimal.valueFrom tmp str ≤ type.maxValue)
    (room : (Decimal.valueFrom tmp str : Int) + 48 ≤ type.promoted.maxValue) :
    str.foldlM (unsafeStep arithmetic type) (tmp : Int) = some (Decimal.valueFrom tmp str : Int) := by
  induction str generalizing tmp with
  | nil => rfl
  | cons c rest ih =>
      rw [Decimal.valueFrom_cons] at fits room ⊢
      have grows := Decimal.le_valueFrom (tmp * 10 + Decimal.digitValue c) rest
      have stepped : unsafeStep arithmetic type tmp c =
          some ((tmp * 10 + Decimal.digitValue c : Nat) : Int) :=
        unsafeStep_fits correct type (all c List.mem_cons_self) (by omega) (by omega)
      rw [List.foldlM_cons, stepped]
      exact ih _ (fun char member => all char (List.mem_cons_of_mem c member)) fits room

theorem toIntegralUnsafe_ok (correct : Correct arithmetic) (type : Integral)
    (all : ∀ char ∈ str, Decimal.isDigit char = true) (fits : Decimal.value str ≤ type.maxValue)
    (room : (Decimal.value str : Int) + 48 ≤ type.promoted.maxValue) :
    toIntegralUnsafe arithmetic type str = some (Decimal.value str : Int) :=
  unsafeLoop_ok correct type 0 all fits room

/-- The code of the last digit leads out of the range of a signed type when there is no room above the
number. -/
theorem toIntegralUnsafe_overflows (type : Integral) (signed : type.promoted.signed = true)
    (nonempty : str ≠ []) (all : ∀ char ∈ str, Decimal.isDigit char = true)
    (fits : Decimal.value str ≤ type.maxValue)
    (crowded : type.promoted.maxValue < (Decimal.value str : Int) + 48) :
    toIntegralUnsafe IntType.result type str = none := by
  rcases List.eq_nil_or_concat str with rfl | ⟨front, last, rfl⟩
  · contradiction
  · rw [List.concat_eq_append] at all fits crowded ⊢
    rw [Decimal.value_append_singleton] at fits crowded
    have most := type.le_maxValue_promoted
    have within := type.le_promoted_maxValue
    have digits : ∀ char ∈ front, Decimal.isDigit char = true :=
      fun char member => all char (List.mem_append_left _ member)
    have code := Decimal.toNat_of_isDigit (all last (List.mem_append_right _ List.mem_cons_self))
    have read : front.foldlM (unsafeStep IntType.result type) 0 = some (Decimal.value front : Int) :=
      toIntegralUnsafe_ok correct_result type digits (by omega) (by omega)
    have scaled : type.promoted.InRange ((Decimal.value front : Int) * 10) :=
      type.promoted_inRange (by omega) (by omega)
    have outside : ¬type.promoted.InRange ((Decimal.value front : Int) * 10 + last.toNat) :=
      fun inRange => absurd inRange.2 (by omega)
    rw [toIntegralUnsafe, List.foldlM_append, read]
    change (unsafeStep IntType.result type (Decimal.value front) last).bind _ = none
    rw [unsafeStep, IntType.result_of_inRange scaled, Option.bind_some,
      IntType.result_overflow signed outside]
    rfl

/-- Unsigned arithmetic always has a result. -/
theorem unsafeLoop_unsigned (type : Integral) (unsigned : type.promoted.signed = false) (str : Text)
    (value : Int) :
    ∃ number, str.foldlM (unsafeStep IntType.result type) value = some number := by
  have computes (value : Int) : type.promoted.result value = some (value % 2 ^ type.promoted.bits) := by
    rw [IntType.result, if_neg (by simp [unsigned])]
  induction str generalizing value with
  | nil => exact ⟨value, rfl⟩
  | cons c rest ih =>
      have stepped : ∃ next, unsafeStep IntType.result type value c = some next := by
        simp only [unsafeStep, computes, Option.bind_some, Option.map_some]
        exact ⟨_, rfl⟩
      obtain ⟨next, stepped⟩ := stepped
      rw [List.foldlM_cons, stepped]
      exact ih next

/-- The arithmetic of an unsigned type wraps around and comes back to the number. -/
theorem toIntegralUnsafe_unsigned (type : IntegerType) (unsigned : type.promoted.signed = false)
    (all : ∀ char ∈ str, Decimal.isDigit char = true) (fits : Decimal.value str ≤ type.maxValue) :
    toIntegralUnsafe IntType.result (.integer type) str = some (Decimal.value str : Int) := by
  obtain ⟨number, computed⟩ := unsafeLoop_unsigned (.integer type) unsigned str 0
  have wraps := toIntegralUnsafe_agrees type computed
  obtain ⟨kind, wide⟩ := type.promoted_of_unsigned unsigned
  rw [toIntegralUnsafe_digits kind wide all] at wraps
  rw [IntType.maxValue, if_neg (by simp [kind])] at fits
  rw [Int.emod_eq_of_lt (by omega) (by omega)] at wraps
  rw [wraps]
  exact computed

/-- Both functions agree on digits, without an overflow, exactly when the arithmetic of the type is unsigned
or represents the number with the code of zero added. -/
theorem toIntegral_agrees (type : Integral) (name : Text) {str : Text} (nonempty : str ≠ [])
    (all : ∀ char ∈ str, Decimal.isDigit char = true) (fits : Decimal.value str ≤ type.maxValue) :
    (∃ value, toIntegral IntType.result type name str = some (.ok value) ∧
        toIntegralUnsafe IntType.result type str = some value) ↔
      (type.promoted.signed = true → (Decimal.value str : Int) + 48 ≤ type.promoted.maxValue) := by
  have checked : toIntegral IntType.result type name (str ++ []) = _ :=
    toIntegral_digits correct_result type nonempty all rfl fits
  rw [List.append_nil] at checked
  constructor
  · rintro ⟨value, -, computed⟩ signed
    by_contra crowded
    rw [toIntegralUnsafe_overflows type signed nonempty all fits (Int.not_le.mp crowded)] at computed
    contradiction
  · intro room
    refine ⟨_, checked, ?_⟩
    cases signed : type.promoted.signed with
    | true => exact toIntegralUnsafe_ok correct_result type all fits (room signed)
    | false =>
        cases type with
        | bool => contradiction
        | integer type => exact toIntegralUnsafe_unsigned type signed all fits

theorem toIntegral_agrees_small :
    (∃ value, toIntegral IntType.result (.integer intType) (ascii "i") (ascii "0042") =
        some (.ok value) ∧
      toIntegralUnsafe IntType.result (.integer intType) (ascii "0042") = some value) ↔
      ((Integral.integer intType).promoted.signed = true →
        (Decimal.value (ascii "0042") : Int) + 48 ≤ (Integral.integer intType).promoted.maxValue) :=
  toIntegral_agrees (.integer intType) (ascii "i") (by decide) (List.all_eq_true.mp rfl) (by decide)

/-- The greatest `int` overflows when the code of its last digit is added. -/
theorem toIntegral_agrees_greatest :
    (∀ char ∈ ascii "2147483647", Decimal.isDigit char = true) ∧
      (Decimal.value (ascii "2147483647") : Int) ≤ (Integral.integer intType).maxValue ∧
      toIntegral IntType.result (.integer intType) (ascii "i") (ascii "2147483647") =
        some (.ok 2147483647) ∧
      toIntegralUnsafe IntType.result (.integer intType) (ascii "2147483647") = none :=
  ⟨List.all_eq_true.mp rfl, by decide, by rfl, by rfl⟩

end MartCommon.Common.ToIntegral

import MartCommon.Library.BoundedWrites
import MartCommon.Library.Integral
import MartCommon.Library.StepSystem

namespace MartCommon.Experimental

open Library Library.BoundedWrites

/-- The template parameter `Capacity`. An array has no negative length. -/
structure DynLimArray.Capacity where
  toNat : Nat
  fits : IntegerType.int.InRange toNat

/-- `DynLimArray<T, Capacity>`. Its elements are those of `std::array<T, Capacity>`. -/
structure DynLimArray (T : Type*) (capacity : DynLimArray.Capacity) where
  size : IntegerType.int.Value
  data : List T
  whole : data.length = capacity.toNat

namespace DynLimArray

variable {T : Type*} {capacity : Capacity}

/-- A constructor completes, it throws `out_of_range`, or it writes outside of the storage. -/
inductive Constructed (T : Type*) (capacity : Capacity) where
  | completed (array : DynLimArray T capacity)
  | outOfRange
  | outside

/-- `throwIfTooBig( size )` throws. -/
def tooBig (capacity : Capacity) (size : IntegerType.int.Value) : Bool := size.val > capacity.toNat

/-- `std::copy( begin, end, _data.begin() )` -/
def copy (elements : List T) (array : DynLimArray T capacity) : Constructed T capacity :=
  match stored : storeAll elements (array.data, 0) with
  | none => .outside
  | some final =>
      .completed { array with data := final.1, whole := (storeAll_length stored).1.trans array.whole }

/-- The conversion of a size to `int`. -/
def toInt (size : Nat) : IntegerType.int.Value :=
  ⟨IntegerType.int.convert size, IntType.convert_inRange IntegerType.int.positive size⟩

theorem toInt_val (size : Nat) : (toInt size).val = IntegerType.int.convert size := by
  simp only [toInt]

section Construction

variable [Inhabited T]

/-- An object with a size and the initial elements. -/
def initial (size : IntegerType.int.Value) : DynLimArray T capacity :=
  ⟨size, List.replicate capacity.toNat default, List.length_replicate⟩

/-- What the constructors for elements have in common. -/
def construct (size : IntegerType.int.Value) (elements : List T) : Constructed T capacity :=
  if tooBig capacity size then .outOfRange else copy elements (initial size)

/-- `DynLimArray()`, where `_size` is what the storage holds. A value initialization has set it to zero. -/
def ofDefault (stored : IntegerType.int.Value) : Constructed T capacity :=
  .completed (initial stored)

/-- `DynLimArray( InputIt begin, InputIt end )` for a range of these elements. -/
def ofIterators (elements : List T) : Constructed T capacity :=
  construct (toInt elements.length) elements

/-- `DynLimArray( const C& container )` -/
def ofContainer (elements : List T) : Constructed T capacity :=
  construct (toInt elements.length) elements

/-- `DynLimArray( int size )` -/
def ofSize (size : IntegerType.int.Value) : Constructed T capacity :=
  if tooBig capacity size then .outOfRange else .completed (initial size)

/-- `DynLimArray( std::initializer_list<T> init )` -/
def ofInitializerList (init : List T) : Constructed T capacity :=
  construct (toInt init.length) init

end Construction

/-- The arguments of a construction other than from an array of the same type. -/
inductive Request (T : Type*) where
  | default (stored : IntegerType.int.Value)
  | iterators (elements : List T)
  | container (elements : List T)
  | size (count : IntegerType.int.Value)
  | initializerList (init : List T)

/-- The number of elements that a construction asks for. -/
def Request.asked : Request T → Option Int
  | .default _ => none
  | .size count => some count
  | .iterators elements | .container elements | .initializerList elements => some elements.length

def Request.construct [Inhabited T] : Request T → Constructed T capacity
  | .default stored => ofDefault stored
  | .iterators elements => ofIterators elements
  | .container elements => ofContainer elements
  | .size count => ofSize count
  | .initializerList init => ofInitializerList init

/-- What is done with the objects of a program. -/
inductive Action (T : Type*) where
  | construct (object : Nat) (request : Request T)
  | copyConstruct (object source : Nat)
  | moveConstruct (object source : Nat)
  | copyAssign (target source : Nat)
  | moveAssign (target source : Nat)
  | destroy (object : Nat)

/-- How many elements were asked for, where they were, and what came of a construction or an assignment. -/
structure Event (T : Type*) (capacity : Capacity) where
  asked : Option Int := none
  made : Option (Constructed T capacity) := none

/-- The objects that exist. -/
abbrev Objects (T : Type*) (capacity : Capacity) := Nat → Option (DynLimArray T capacity)

/-- The elements have been moved away, which leaves values of the element type. -/
def movedFrom (moved : T → T) (source : DynLimArray T capacity) : DynLimArray T capacity :=
  { source with data := source.data.map moved, whole := (List.length_map moved).trans source.whole }

/-- The defaulted functions take both members as they are. -/
def take (objects : Objects T capacity) (target source : Nat)
    (leave : DynLimArray T capacity → DynLimArray T capacity) :
    Option (Event T capacity × Objects T capacity) :=
  (objects source).map fun array =>
    ({ made := some (.completed array) },
      Function.update (Function.update objects source (some (leave array))) target (some array))

/-- A program with arrays. Objects are created where there are none, and used where there are some. -/
def system [Inhabited T] (capacity : Capacity) (moved : T → T) :
    StepSystem (Objects T capacity) (Action T) (Event T capacity) where
  step objects
    | .construct object request =>
        if (objects object).isSome then none
        else
          let made := request.construct
          some (⟨request.asked, some made⟩,
            match made with
            | .completed array => Function.update objects object (some array)
            | _ => objects)
    | .copyConstruct object source =>
        if (objects object).isSome then none else take objects object source id
    | .moveConstruct object source =>
        if (objects object).isSome then none else take objects object source (movedFrom moved)
    | .copyAssign target source =>
        if (objects target).isSome then take objects target source id else none
    | .moveAssign target source =>
        if (objects target).isSome then take objects target source (movedFrom moved) else none
    | .destroy object =>
        if (objects object).isSome then some ({}, Function.update objects object none) else none

/-- The representation invariant. -/
def Valid (array : DynLimArray T capacity) : Prop :=
  0 ≤ array.size.val ∧ array.size.val ≤ capacity.toNat

/-- A construction or an assignment writes inside the storage only, and what it completes is valid. A
request that does not fit throws. -/
structure Event.Proper (event : Event T capacity) : Prop where
  inside : event.made ≠ some .outside
  valid : ∀ array, event.made = some (.completed array) → array.Valid
  refused : ∀ count, event.asked = some count → capacity.toNat < count →
    event.made = some .outOfRange

/-- The condition on a request: what the storage holds is a size, a size is not negative, and where more
elements come than fit, their number is still too big as an `int`. -/
def Request.Sound (capacity : Capacity) : Request T → Prop
  | .default stored => 0 ≤ stored.val ∧ stored.val ≤ capacity.toNat
  | .size count => 0 ≤ count.val
  | .iterators elements | .container elements | .initializerList elements =>
      elements.length ≤ capacity.toNat ∨ capacity.toNat < IntegerType.int.convert elements.length

def Action.Sound (capacity : Capacity) : Action T → Prop
  | .construct _ request => request.Sound capacity
  | _ => True

def AllValid (objects : Objects T capacity) : Prop :=
  ∀ object array, objects object = some array → array.Valid

section Copying

variable {elements : List T}

/-- Elements that fit are copied, which does not change the size. -/
theorem copy_fits (array : DynLimArray T capacity) (fits : elements.length ≤ capacity.toNat) :
    ∃ copied, copy elements array = .completed copied ∧ copied.size = array.size := by
  have same : elements.length = (array.data.take elements.length).length := by
    rw [List.length_take, array.whole]
    omega
  have stored := storeAll_fits elements [] (array.data.drop elements.length)
    (array.data.take elements.length) same
  rw [List.nil_append, List.nil_append, List.take_append_drop, List.length_nil] at stored
  unfold copy
  split
  · rename_i failed
    rw [stored] at failed
    contradiction
  · exact ⟨_, rfl, rfl⟩

theorem copy_outside (array : DynLimArray T capacity) (exceeds : capacity.toNat < elements.length) :
    copy elements array = .outside := by
  unfold copy
  split
  · rfl
  · rename_i final stored
    have inside := storeAll_inside stored (by rintro rfl; contradiction)
    rw [array.whole] at inside
    omega

variable [Inhabited T]

/-- A size that passes the check is not above the capacity. -/
theorem construct_eq (size : IntegerType.int.Value) (elements : List T) :
    construct size elements = if capacity.toNat < size.val then .outOfRange
      else (copy elements (initial size) : Constructed T capacity) := by
  unfold construct tooBig
  simp only [gt_iff_lt, decide_eq_true_iff]

/-- Up to the capacity, a number of elements is a value of `int`. -/
theorem toInt_of_le {count : Nat} (le : count ≤ capacity.toNat) : (toInt count).val = count := by
  have positive : (0 : Int) ≤ count := Int.natCast_nonneg count
  have small : (count : Int) ≤ IntegerType.int.maxValue :=
    Int.le_trans (Int.ofNat_le.mpr le) capacity.fits.2
  rw [toInt_val]
  exact IntType.convert_of_inRange IntegerType.int.positive
    (IntegerType.int.inRange_of_le positive small)

end Copying

section Requests

variable [Inhabited T]

theorem construct_proper_iff (elements : List T) :
    (⟨some elements.length, some (construct (toInt elements.length) elements)⟩ :
        Event T capacity).Proper ↔
      elements.length ≤ capacity.toNat ∨
        capacity.toNat < IntegerType.int.convert elements.length := by
  rw [construct_eq, ← toInt_val]
  by_cases fits : elements.length ≤ capacity.toNat
  · have size := toInt_of_le fits
    have passes : ¬ (capacity.toNat : Int) < (toInt elements.length).val := by omega
    obtain ⟨copied, completed, same⟩ := copy_fits (initial (toInt elements.length)) fits
    rw [if_neg passes, completed]
    refine iff_of_true ⟨by simp, ?_, ?_⟩ (.inl fits)
    · intro array made
      cases made
      rw [Valid, same, initial, size]
      omega
    · intro count asked exceeds
      cases asked
      omega
  · have exceeds := Nat.lt_of_not_le fits
    rw [copy_outside _ exceeds, or_iff_right fits]
    by_cases refused : (capacity.toNat : Int) < (toInt elements.length).val
    · rw [if_pos refused]
      exact iff_of_true ⟨by simp, by simp, fun _ _ _ => rfl⟩ refused
    · rw [if_neg refused]
      exact iff_of_false (fun proper => proper.inside rfl) refused

theorem ofSize_proper_iff (size : IntegerType.int.Value) :
    (⟨some size.val, some (ofSize size)⟩ : Event T capacity).Proper ↔ 0 ≤ size.val := by
  unfold ofSize tooBig
  by_cases refused : (capacity.toNat : Int) < size.val
  · rw [if_pos (decide_eq_true refused)]
    exact iff_of_true ⟨by simp, by simp, fun _ _ _ => rfl⟩ (by omega)
  · rw [if_neg (by simpa using refused)]
    constructor
    · exact fun proper => (proper.valid _ rfl).1
    · refine fun positive => ⟨by simp, ?_, ?_⟩
      · intro array made
        cases made
        exact ⟨positive, Int.not_lt.mp refused⟩
      · intro count asked exceeds
        cases asked
        exact absurd exceeds refused

theorem request_proper_iff (request : Request T) :
    (⟨request.asked, some request.construct⟩ : Event T capacity).Proper ↔
      request.Sound capacity := by
  cases request with
  | default stored =>
      constructor
      · exact fun proper => proper.valid _ rfl
      · refine fun sound => ⟨by simp [Request.construct, ofDefault], ?_, by simp [Request.asked]⟩
        intro array made
        cases made
        exact sound
  | size count => exact ofSize_proper_iff count
  | iterators elements | container elements | initializerList elements =>
      exact construct_proper_iff elements

end Requests

section Steps

variable {objects after : Objects T capacity} {event : Event T capacity} {moved : T → T}

theorem AllValid.update (valid : AllValid objects) (object : Nat) {array : DynLimArray T capacity}
    (new : array.Valid) : AllValid (Function.update objects object (some array)) := by
  intro other there found
  by_cases same : other = object
  · rw [same, Function.update_self] at found
    exact Option.some.inj found ▸ new
  · rw [Function.update_of_ne same] at found
    exact valid other there found

theorem AllValid.destroy (valid : AllValid objects) (object : Nat) :
    AllValid (Function.update objects object none) := by
  intro other there found
  by_cases same : other = object
  · rw [same, Function.update_self] at found
    contradiction
  · rw [Function.update_of_ne same] at found
    exact valid other there found

/-- Copies and moves keep the size, so that they are always as valid as their source. -/
theorem take_proper {target source : Nat} {leave : DynLimArray T capacity → DynLimArray T capacity}
    (keeps : ∀ array, (leave array).size = array.size) (valid : AllValid objects)
    (taken : take objects target source leave = some (event, after)) :
    event.Proper ∧ AllValid after := by
  obtain ⟨array, found, same⟩ := Option.map_eq_some_iff.mp taken
  obtain ⟨rfl, rfl⟩ := Prod.mk.inj same
  have sound := valid source array found
  have left : (leave array).Valid := by
    rw [Valid, keeps]
    exact sound
  refine ⟨⟨by simp, ?_, by simp⟩, (valid.update source left).update target sound⟩
  intro other made
  cases made
  exact sound

variable [Inhabited T]

/-- A step is proper exactly where its request is sound, and then it keeps all arrays valid. -/
theorem step_proper {action : Action T} (valid : AllValid objects)
    (step : (system capacity moved).step objects action = some (event, after)) :
    (event.Proper ↔ action.Sound capacity) ∧ (action.Sound capacity → AllValid after) := by
  have copies (array : DynLimArray T capacity) : (id array).size = array.size := rfl
  have moves (array : DynLimArray T capacity) : (movedFrom moved array).size = array.size := rfl
  have always (both : event.Proper ∧ AllValid after) :
      (event.Proper ↔ True) ∧ (True → AllValid after) :=
    ⟨iff_of_true both.1 trivial, fun _ => both.2⟩
  cases action with
  | construct object request =>
      simp only [system, Option.ite_none_left_eq_some, Option.some.injEq, Prod.mk.injEq] at step
      obtain ⟨-, rfl, rfl⟩ := step
      refine ⟨request_proper_iff request, fun sound => ?_⟩
      have proper := (request_proper_iff request).mpr sound
      split
      · rename_i array made
        exact valid.update object (proper.valid array (congrArg some made))
      · exact valid
  | copyConstruct object source =>
      simp only [system, Option.ite_none_left_eq_some] at step
      exact always (take_proper copies valid step.2)
  | moveConstruct object source =>
      simp only [system, Option.ite_none_left_eq_some] at step
      exact always (take_proper moves valid step.2)
  | copyAssign target source =>
      simp only [system, Option.ite_none_right_eq_some] at step
      exact always (take_proper copies valid step.2)
  | moveAssign target source =>
      simp only [system, Option.ite_none_right_eq_some] at step
      exact always (take_proper moves valid step.2)
  | destroy object =>
      simp only [system, Option.ite_none_right_eq_some, Option.some.injEq, Prod.mk.injEq] at step
      obtain ⟨-, rfl, rfl⟩ := step
      exact always ⟨⟨by simp, by simp, by simp⟩, valid.destroy object⟩

end Steps

/-- A run has only proper constructions and assignments and leaves only valid arrays if and only if all
its requests are sound. -/
theorem run_proper_iff [Inhabited T] {moved : T → T} {actions : List (Action T)}
    {events : List (Event T capacity)} {final : Objects T capacity}
    (executed : (system capacity moved).execute (fun _ => none) actions = some (events, final)) :
    (∀ event ∈ events, event.Proper) ∧ AllValid final ↔
      ∀ action ∈ actions, action.Sound capacity := by
  have nothing : AllValid (fun _ => none : Objects T capacity) := fun _ _ found => nomatch found
  obtain ⟨proper_iff, kept⟩ :=
    StepSystem.execute_good_iff (fun valid => step_proper valid) nothing executed
  rw [← StepSystem.obeys_iff executed, proper_iff]
  exact ⟨And.left, fun sound => ⟨sound, kept sound⟩⟩

def four : Capacity := ⟨4, by decide⟩

/-- Three elements without values, and a copy of them. -/
theorem run_proper_three :
    let three : DynLimArray Nat four := initial ⟨3, by decide⟩
    (∀ event ∈ [(⟨some 3, some (.completed three)⟩ : Event Nat four),
        ⟨none, some (.completed three)⟩], event.Proper) ∧
      AllValid (Function.update (Function.update (Function.update (fun _ => none) 0 (some three))
        0 (some three)) 1 (some three)) := by
  intro three
  have executed : (system four id).execute (fun _ => none)
      [.construct 0 (.size ⟨3, by decide⟩), .copyConstruct 1 0] = some
        ([⟨some 3, some (.completed three)⟩, ⟨none, some (.completed three)⟩], _) := rfl
  refine (run_proper_iff executed).mpr ?_
  rw [List.forall_mem_cons, List.forall_mem_singleton]
  exact ⟨(by decide : (0 : Int) ≤ 3), trivial⟩

/-- The size 4294967297 of a container becomes one, so that all its elements are copied. -/
theorem run_improper :
    ¬ ∀ (actions : List (Action Nat)) events final,
      (system four id).execute (fun _ => none) actions = some (events, final) →
        (∀ event ∈ events, event.Proper) ∧ AllValid final := by
  intro always
  have first (request : Request Nat) : (system four id).execute (fun _ => none) [.construct 0 request] =
      some ([⟨request.asked, some request.construct⟩], _) := rfl
  obtain ⟨proper, -⟩ := always _ _ _ (first (.container (List.replicate 4294967297 0)))
  have sound := (request_proper_iff _).mp (proper _ List.mem_cons_self)
  have converted : IntegerType.int.convert (4294967297 : Nat) = 1 := by decide
  simp only [Request.Sound, List.length_replicate, converted, four] at sound
  omega

end DynLimArray

end MartCommon.Experimental

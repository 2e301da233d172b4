import MartCommon.Library.Fifo
import MartCommon.Library.IntType
import MartCommon.Library.Ring

namespace MartCommon.Experimental

open Library

/-- The template argument `N`, a positive `int`. -/
structure Capacity where
  size : Nat
  positive : 0 < size
  fits : (size : Int) ≤ IntType.int.maxValue

structure CircularBuffer (T : Type*) (N : Capacity) where
  data : Fin N.size → T
  nextRead : Int := 0
  nextWrite : Int := 0

namespace CircularBuffer

variable {T : Type*} {N : Capacity}

instance [Inhabited T] : Inhabited (CircularBuffer T N) := ⟨{ data := fun _ => default }⟩

/-- The place of an index in the storage, unless it lies outside. -/
def slot (N : Capacity) (index : Int) : Option (Fin N.size) :=
  if inside : 0 ≤ index ∧ index.toNat < N.size then some ⟨index.toNat, inside.2⟩ else none

def next (N : Capacity) (current : Int) : Option Int :=
  (IntType.int.result (current + 1)).map fun sum => sum.tmod N.size

section Operations

variable (buffer : CircularBuffer T N) (leave : T → T)

def pushBack (value : T) : Option (CircularBuffer T N) :=
  (slot N buffer.nextWrite).bind fun place =>
    (next N buffer.nextWrite).map fun nextWrite =>
      { buffer with data := Function.update buffer.data place value, nextWrite }

/-- `T pop_front()` leaves in the storage what a move leaves. -/
def popFront : Option (T × CircularBuffer T N) :=
  let ti := buffer.nextRead
  (next N buffer.nextRead).bind fun nextRead =>
    (slot N ti).map fun place =>
      (buffer.data place,
        { buffer with
          data := Function.update buffer.data place (leave (buffer.data place)), nextRead })

/-- `void pop_front( T& out )` -/
def popFrontInto : Option (T × CircularBuffer T N) :=
  (slot N buffer.nextRead).bind fun place =>
    let out := buffer.data place
    let moved := { buffer with data := Function.update buffer.data place (leave out) }
    (next N moved.nextRead).map fun nextRead => (out, { moved with nextRead })

/-- `operator[]` -/
def get (i : Int) : Option T :=
  (IntType.int.result (buffer.nextRead + i)).bind fun sum =>
    (slot N (sum.tmod N.size)).map buffer.data

def size : Option Int :=
  if buffer.nextRead ≤ buffer.nextWrite then
    IntType.int.result (buffer.nextWrite - buffer.nextRead)
  else
    (IntType.int.result (buffer.nextWrite + N.size)).bind fun sum =>
      IntType.int.result (sum - buffer.nextRead)

def empty : Option Bool := buffer.size.map fun size => size == 0

end Operations

inductive Call (T : Type*) where
  | pushBack (value : T)
  | popFront
  | popFrontInto
  deriving DecidableEq

/-- What a call does to a queue. -/
def Call.action : Call T → Fifo.Action T
  | .pushBack value => .put value
  | .popFront => .take
  | .popFrontInto => .take

/-- The calls in any order, where a buffer that is empty is not popped. -/
def system (N : Capacity) (leave : T → T) :
    StepSystem (CircularBuffer T N) (Call T) (Fifo.Event T) where
  step buffer
    | .pushBack value => (buffer.pushBack value).map fun after => (.put value, after)
    | .popFront =>
        if buffer.nextRead = buffer.nextWrite then none
        else (buffer.popFront leave).map fun result => (.take result.1, result.2)
    | .popFrontInto =>
        if buffer.nextRead = buffer.nextWrite then none
        else (buffer.popFrontInto leave).map fun result => (.take result.1, result.2)

/-- The purpose of the buffer: a queue for up to `N - 1` values. -/
def queue (T : Type*) (N : Capacity) : StepSystem (List T) (Call T) (Fifo.Event T) :=
  ((Fifo.system T).confine fun stored => stored.length < N.size).rename Call.action

/-- The indices are the residues of how many values were taken and put. -/
structure Placed (buffer : CircularBuffer T N) (taken put : Nat) : Prop where
  read : buffer.nextRead = (taken % N.size : Nat)
  write : buffer.nextWrite = (put % N.size : Nat)

theorem slot_mod (count : Nat) : slot N (count % N.size : Nat) = some (Ring.place N.positive count 0) := by
  have small := Nat.mod_lt count N.positive
  rw [slot, dif_pos ⟨Int.natCast_nonneg _, small⟩]
  rfl

theorem next_mod (count : Nat) :
    next N (count % N.size : Nat) = some (((count + 1) % N.size : Nat) : Int) := by
  have small := Nat.mod_lt count N.positive
  have fits : (N.size : Int) ≤ 2147483647 := N.fits
  have inRange : IntType.int.InRange ((count % N.size : Nat) + 1 : Int) := by
    rw [IntType.inRange_int]
    omega
  rw [next, IntType.result_of_inRange inRange, Option.map_some, Option.some.injEq, ← Nat.mod_add_mod]
  exact Int.ofNat_tmod _ _

theorem Placed.pushBack {buffer : CircularBuffer T N} {taken put : Nat} (placed : Placed buffer taken put)
    (value : T) :
    buffer.pushBack value = some { buffer with
      data := Function.update buffer.data (Ring.place N.positive put 0) value
      nextWrite := ((put + 1) % N.size : Nat) } := by
  rw [CircularBuffer.pushBack, placed.write, slot_mod, next_mod]
  rfl

theorem Placed.popFront {buffer : CircularBuffer T N} {taken put : Nat} (placed : Placed buffer taken put)
    (leave : T → T) :
    buffer.popFront leave = some (buffer.data (Ring.place N.positive taken 0), { buffer with
      data := Function.update buffer.data (Ring.place N.positive taken 0)
        (leave (buffer.data (Ring.place N.positive taken 0)))
      nextRead := ((taken + 1) % N.size : Nat) }) := by
  rw [CircularBuffer.popFront, placed.read, slot_mod, next_mod]
  rfl

/-- Both forms of `pop_front` do the same. -/
theorem Placed.popFrontInto {buffer : CircularBuffer T N} {taken put : Nat}
    (placed : Placed buffer taken put) (leave : T → T) :
    buffer.popFrontInto leave = buffer.popFront leave := by
  rw [placed.popFront, CircularBuffer.popFrontInto, placed.read, slot_mod]
  simp only [Option.bind_some, next_mod]
  rfl

theorem Placed.read_bounds {buffer : CircularBuffer T N} {taken put : Nat}
    (placed : Placed buffer taken put) : 0 ≤ buffer.nextRead ∧ buffer.nextRead < N.size := by
  have small := Nat.mod_lt taken N.positive
  rw [placed.read]
  omega

theorem Placed.write_bounds {buffer : CircularBuffer T N} {taken put : Nat}
    (placed : Placed buffer taken put) : 0 ≤ buffer.nextWrite ∧ buffer.nextWrite < N.size := by
  have small := Nat.mod_lt put N.positive
  rw [placed.write]
  omega

/-- The sum that `size` forms stays in the range of `int`. -/
def SizeFits (buffer : CircularBuffer T N) : Prop :=
  buffer.nextWrite < buffer.nextRead → buffer.nextWrite + N.size ≤ IntType.int.maxValue

/-- A distance below `N` shows in the residues, directly or after one turn. -/
theorem residue_add (first distance : Nat) {size : Nat} (small : distance < size) :
    (first + distance) % size =
      if first % size + distance < size then first % size + distance
      else first % size + distance - size := by
  have residue := Nat.mod_lt first (Nat.zero_lt_of_lt small)
  rw [← Nat.mod_add_mod]
  split
  · rename_i direct
    exact Nat.mod_eq_of_lt direct
  · rename_i turned
    rw [Nat.mod_eq_sub_mod (Nat.not_lt.mp turned), Nat.mod_eq_of_lt (by omega)]

/-- The write index is ahead of the read index by the distance, directly or after one turn. -/
theorem Placed.distance {buffer : CircularBuffer T N} {taken distance : Nat}
    (placed : Placed buffer taken (taken + distance)) (small : distance < N.size) :
    (buffer.nextRead ≤ buffer.nextWrite ∧ buffer.nextWrite - buffer.nextRead = distance) ∨
      (buffer.nextWrite < buffer.nextRead ∧
        buffer.nextWrite + N.size - buffer.nextRead = distance) := by
  have residue := Nat.mod_lt taken N.positive
  have turned := residue_add taken distance small
  rw [placed.read, placed.write]
  split at turned <;> omega

/-- The size is the distance between the indices. -/
theorem Placed.size {buffer : CircularBuffer T N} {taken distance : Nat}
    (placed : Placed buffer taken (taken + distance)) (small : distance < N.size) :
    buffer.size = if buffer.nextWrite < buffer.nextRead ∧
      IntType.int.maxValue < buffer.nextWrite + N.size then none else some (distance : Int) := by
  have fits : (N.size : Int) ≤ 2147483647 := N.fits
  have readBounds := placed.read_bounds
  have writeBounds := placed.write_bounds
  rw [CircularBuffer.size]
  rcases placed.distance small with ⟨ahead, distance⟩ | ⟨behind, distance⟩
  · have inRange : IntType.int.InRange (buffer.nextWrite - buffer.nextRead) := by
      rw [IntType.inRange_int]
      omega
    rw [if_pos ahead, IntType.result_of_inRange inRange, distance, if_neg]
    omega
  · rw [if_neg (by omega)]
    by_cases overflow : IntType.int.maxValue < buffer.nextWrite + N.size
    · have outside : ¬IntType.int.InRange (buffer.nextWrite + N.size) := fun inside =>
        absurd inside.2 (by omega)
      rw [if_pos ⟨behind, overflow⟩, IntType.result_overflow rfl outside]
      rfl
    · have sumInRange : IntType.int.InRange (buffer.nextWrite + N.size) := by
        refine ⟨?_, by omega⟩
        change (-2147483648 : Int) ≤ _
        omega
      have inRange : IntType.int.InRange (buffer.nextWrite + N.size - buffer.nextRead) := by
        rw [IntType.inRange_int]
        omega
      rw [if_neg fun both => overflow both.2, IntType.result_of_inRange sumInRange, Option.bind_some,
        IntType.result_of_inRange inRange, distance]

theorem Placed.size_eq {buffer : CircularBuffer T N} {taken distance : Nat}
    (placed : Placed buffer taken (taken + distance)) (small : distance < N.size)
    (fits : buffer.SizeFits) : buffer.size = some (distance : Int) := by
  rw [placed.size small, if_neg]
  rintro ⟨behind, overflow⟩
  exact absurd (fits behind) (Int.not_le.mpr overflow)

/-- A place behind the read index. -/
theorem Placed.get {buffer : CircularBuffer T N} {taken put : Nat} (placed : Placed buffer taken put)
    {i : Nat} (fits : buffer.nextRead + i ≤ IntType.int.maxValue) :
    buffer.get i = some (buffer.data (Ring.place N.positive taken i)) := by
  have bounds := placed.read_bounds
  have inRange : IntType.int.InRange (buffer.nextRead + i) := by
    refine ⟨?_, fits⟩
    change (-2147483648 : Int) ≤ _
    omega
  have place : (buffer.nextRead + i).tmod N.size = ((taken + i) % N.size : Nat) := by
    rw [placed.read, ← Int.natCast_add, ← Nat.mod_add_mod]
    exact (Int.ofNat_tmod _ _).symm
  rw [CircularBuffer.get, IntType.result_of_inRange inRange, Option.bind_some, place, slot_mod]
  rfl

/-- The storage holds the values from the read index up to the write index. -/
structure Stores (buffer : CircularBuffer T N) (taken : Nat) (stored : List T) : Prop where
  placed : Placed buffer taken (taken + stored.length)
  holds : Ring.Holds N.positive buffer.data taken stored
  room : stored.length < N.size

theorem stores_default [Inhabited T] : Stores (default : CircularBuffer T N) 0 [] := by
  refine ⟨⟨?_, ?_⟩, Ring.holds_nil, N.positive⟩ <;> simp [default]

theorem Stores.pushBack {buffer : CircularBuffer T N} {taken : Nat} {stored : List T} {value : T}
    (stores : Stores buffer taken stored) (room : (stored ++ [value]).length < N.size) :
    ∃ after, buffer.pushBack value = some after ∧ Stores after taken (stored ++ [value]) := by
  refine ⟨_, stores.placed.pushBack value, ⟨stores.placed.read, ?_⟩, ?_, room⟩
  · rw [List.length_append, List.length_singleton, ← Nat.add_assoc]
  · rw [Ring.place_add, Nat.add_zero]
    exact stores.holds.push stores.room

theorem Stores.popFront {buffer : CircularBuffer T N} {taken : Nat} {rest : List T} {value : T}
    (stores : Stores buffer taken (value :: rest)) (leave : T → T) :
    ∃ after, buffer.popFront leave = some (value, after) ∧ Stores after (taken + 1) rest := by
  have oldest := stores.holds.head
  have room : rest.length < N.size := Nat.lt_of_succ_lt stores.room
  have popped := stores.placed.popFront leave
  rw [oldest] at popped
  refine ⟨_, popped, ⟨rfl, ?_⟩, stores.holds.pop room, room⟩
  rw [stores.placed.write, List.length_cons, Nat.add_assoc, Nat.add_comm 1]

/-- The indices of a buffer that stores something are different. -/
theorem Stores.apart {buffer : CircularBuffer T N} {taken : Nat} {stored : List T}
    (stores : Stores buffer taken stored) (filled : stored ≠ []) : buffer.nextRead ≠ buffer.nextWrite := by
  intro same
  rw [stores.placed.read, stores.placed.write, Int.natCast_inj] at same
  have places : Ring.place N.positive taken 0 = Ring.place N.positive taken stored.length :=
    Fin.ext same
  have none := Ring.place_injective N.positive stores.room places
  exact filled (List.length_eq_zero_iff.mp none.symm)

theorem queue_step {stored after : List T} {call : Call T} {event : Fifo.Event T} :
    (queue T N).step stored call = some (event, after) ↔
      Fifo.step stored call.action = some (event, after) ∧ after.length < N.size := by
  simp only [queue, StepSystem.rename, StepSystem.confine_step, Fifo.system]

/-- A value that the queue gives away is the one that the buffer gives away. -/
theorem Stores.take {buffer : CircularBuffer T N} {taken : Nat} {stored after : List T}
    {event : Fifo.Event T} (stores : Stores buffer taken stored) (leave : T → T)
    (stepped : Fifo.step stored .take = some (event, after)) :
    ∃ value next, event = .take value ∧ buffer.nextRead ≠ buffer.nextWrite ∧
      buffer.popFront leave = some (value, next) ∧ Stores next (taken + 1) after := by
  cases stored with
  | nil => simp [Fifo.step] at stepped
  | cons value rest =>
      simp only [Fifo.step, Option.some.injEq, Prod.mk.injEq] at stepped
      obtain ⟨rfl, rfl⟩ := stepped
      obtain ⟨next, popped, later⟩ := stores.popFront leave
      exact ⟨value, next, rfl, stores.apart (List.cons_ne_nil value rest), popped, later⟩

/-- The buffer answers each call as the queue does. -/
theorem Stores.matched {leave : T → T} {buffer : CircularBuffer T N} {stored after : List T}
    {call : Call T} {event : Fifo.Event T} (stores : ∃ taken, Stores buffer taken stored)
    (stepped : (queue T N).step stored call = some (event, after)) :
    ∃ next, (system N leave).step buffer call = some (event, next) ∧ ∃ taken, Stores next taken after := by
  obtain ⟨taken, stores⟩ := stores
  obtain ⟨stepped, room⟩ := queue_step.mp stepped
  cases call with
  | pushBack value =>
      simp only [Fifo.step, Call.action, Option.some.injEq, Prod.mk.injEq] at stepped
      obtain ⟨rfl, rfl⟩ := stepped
      obtain ⟨next, pushed, later⟩ := stores.pushBack room
      exact ⟨next, by simp only [system, pushed, Option.map_some], taken, later⟩
  | popFront =>
      obtain ⟨value, next, rfl, apart, popped, later⟩ := stores.take leave stepped
      exact ⟨next, by simp only [system, if_neg apart, popped, Option.map_some], taken + 1, later⟩
  | popFrontInto =>
      obtain ⟨value, next, rfl, apart, popped, later⟩ := stores.take leave stepped
      rw [← stores.placed.popFrontInto leave] at popped
      exact ⟨next, by simp only [system, if_neg apart, popped, Option.map_some], taken + 1, later⟩

/-- Each call moves one of the indices on, also when the buffer overruns. -/
theorem Placed.step_cases {leave : T → T} {buffer after : CircularBuffer T N} {taken put : Nat}
    {call : Call T} {event : Fifo.Event T} (placed : Placed buffer taken put)
    (stepped : (system N leave).step buffer call = some (event, after)) :
    (∃ value, event = .put value ∧ Placed after taken (put + 1)) ∨
      ∃ value, event = .take value ∧ Placed after (taken + 1) put := by
  cases call with
  | pushBack value =>
      simp only [system, placed.pushBack, Option.map_some, Option.some.injEq, Prod.mk.injEq] at stepped
      obtain ⟨rfl, rfl⟩ := stepped
      exact .inl ⟨value, rfl, placed.read, rfl⟩
  | popFront =>
      simp only [system, placed.popFront, Option.map_some, Option.ite_none_left_eq_some,
        Option.some.injEq, Prod.mk.injEq] at stepped
      obtain ⟨-, rfl, rfl⟩ := stepped
      exact .inr ⟨_, rfl, rfl, placed.write⟩
  | popFrontInto =>
      simp only [system, placed.popFrontInto, placed.popFront, Option.map_some,
        Option.ite_none_left_eq_some, Option.some.injEq, Prod.mk.injEq] at stepped
      obtain ⟨-, rfl, rfl⟩ := stepped
      exact .inr ⟨_, rfl, rfl, placed.write⟩

/-- In every run the indices are the residues of the numbers of pushes and pops. -/
theorem placed_of_run [Inhabited T] {leave : T → T} {history : List (Fifo.Event T)}
    {buffer : CircularBuffer T N} (run : (system N leave).Run default history buffer) :
    Placed buffer (Fifo.takes history).length (Fifo.puts history).length := by
  refine run.invariant (fun history buffer =>
    Placed buffer (Fifo.takes history).length (Fifo.puts history).length) stores_default.placed ?_
  intro history before call event after placed stepped
  rcases placed.step_cases stepped with ⟨value, rfl, later⟩ | ⟨value, rfl, later⟩
  · simpa [Fifo.takes, Fifo.puts] using later
  · simpa [Fifo.takes, Fifo.puts] using later

/-- The sum that `operator[]` forms stays in the range of `int`. -/
def GetFits (buffer : CircularBuffer T N) (i : Nat) : Prop :=
  buffer.nextRead + i ≤ IntType.int.maxValue

/-- What a buffer shows of the values it stores, where its sums fit into `int`. -/
structure Shows (buffer : CircularBuffer T N) (stored : List T) : Prop where
  read : 0 ≤ buffer.nextRead ∧ buffer.nextRead < N.size
  write : 0 ≤ buffer.nextWrite ∧ buffer.nextWrite < N.size
  size : buffer.SizeFits → buffer.size = some (stored.length : Int)
  empty : buffer.SizeFits → buffer.empty = some stored.isEmpty
  get : ∀ (i : Nat) (inside : i < stored.length), buffer.GetFits i → buffer.get i = some stored[i]

theorem Stores.shows {buffer : CircularBuffer T N} {taken : Nat} {stored : List T}
    (stores : Stores buffer taken stored) : buffer.Shows stored where
  read := stores.placed.read_bounds
  write := stores.placed.write_bounds
  size := stores.placed.size_eq stores.room
  empty fits := by
    rw [CircularBuffer.empty, stores.placed.size_eq stores.room fits]
    cases stored with
    | nil => rfl
    | cons value rest =>
        have filled : ((value :: rest).length : Int) ≠ 0 :=
          Int.natCast_ne_zero.mpr (Nat.succ_ne_zero rest.length)
        simpa using filled
  get i inside fits := by
    rw [stores.placed.get fits, stores.holds i inside]

/-- Up to `2 ^ 30` places all sums fit. -/
theorem Stores.fits {buffer : CircularBuffer T N} {taken : Nat} {stored : List T}
    (stores : Stores buffer taken stored) (small : N.size ≤ 2 ^ 30) :
    buffer.SizeFits ∧ ∀ i < stored.length, buffer.GetFits i := by
  have readBounds := stores.placed.read_bounds
  have room := stores.room
  have most : IntType.int.maxValue = 2147483647 := rfl
  refine ⟨fun behind => ?_, fun i inside => ?_⟩
  · omega
  · rw [GetFits]
    omega

/-- A buffer answers every list of calls like a queue, shows what the queue stores, and keeps its indices
in the storage. The values taken and the values stored are the values put, in order. -/
theorem buffer_is_queue [Inhabited T] (leave : T → T) {calls : List (Call T)}
    {events : List (Fifo.Event T)} {stored : List T}
    (executed : (queue T N).execute [] calls = some (events, stored)) :
    ∃ buffer, (system N leave).execute default calls = some (events, buffer) ∧ buffer.Shows stored ∧
      Fifo.takes events ++ stored = Fifo.puts events ∧
      (stored.length : Int) = (Fifo.puts events).length - (Fifo.takes events).length ∧
      (N.size ≤ 2 ^ 30 → buffer.SizeFits ∧ ∀ i < stored.length, buffer.GetFits i) := by
  obtain ⟨buffer, ran, taken, stores⟩ :=
    StepSystem.execute_matched Stores.matched ⟨0, stores_default⟩ executed
  have conserved : Fifo.takes events ++ stored = Fifo.puts events :=
    Fifo.run_conserves (StepSystem.run_of_execute calls executed).of_rename.unconfine
  have lengths := congrArg List.length conserved
  rw [List.length_append] at lengths
  exact ⟨buffer, ran, stores.shows, conserved, by omega, stores.fits⟩

/-- Ten places and calls that turn once around. -/
def tenPlaces : Capacity := ⟨10, by decide, by decide⟩

def turningCalls : List (Call Nat) :=
  [1, 2, 3, 4, 5, 6].map .pushBack ++ [.popFront, .popFrontInto, .popFront, .popFront] ++
    [7, 8, 9, 10, 11, 12].map .pushBack

theorem buffer_is_queue_turning :
    ∃ events stored, (queue Nat tenPlaces).execute [] turningCalls = some (events, stored) ∧
      ∃ buffer, (system tenPlaces id).execute default turningCalls = some (events, buffer) ∧
        buffer.Shows stored ∧ Fifo.takes events ++ stored = Fifo.puts events ∧
        (stored.length : Int) = (Fifo.puts events).length - (Fifo.takes events).length ∧
        (tenPlaces.size ≤ 2 ^ 30 →
          buffer.SizeFits ∧ ∀ i < stored.length, buffer.GetFits i) := by
  obtain ⟨events, stored, executed⟩ : ∃ events stored,
      (queue Nat tenPlaces).execute [] turningCalls = some (events, stored) := ⟨_, _, rfl⟩
  exact ⟨events, stored, executed, buffer_is_queue id executed⟩

/-- Pushes and pops by turns lead to any read index. -/
theorem taken_by_turns (N : Capacity) (value : T) (several : 1 < N.size) (count : Nat) :
    ∃ history, (queue T N).Run [] history [] ∧ (Fifo.takes history).length = count := by
  induction count with
  | zero => exact ⟨[], .start, rfl⟩
  | succ count ih =>
      obtain ⟨history, run, taken⟩ := ih
      have push : (queue T N).step [] (.pushBack value) = some (.put value, [value]) :=
        queue_step.mpr ⟨rfl, several⟩
      have pop : (queue T N).step [value] .popFront = some (.take value, []) :=
        queue_step.mpr ⟨rfl, N.positive⟩
      refine ⟨_, (run.next push).next pop, ?_⟩
      simp [Fifo.takes, taken]

/-- Pushes fill the queue. -/
theorem filled_by_pushes (value : T) {history : List (Fifo.Event T)}
    (run : (queue T N).Run [] history []) (count : Nat) (room : count < N.size) :
    ∃ later, (queue T N).Run [] later (List.replicate count value) ∧
      Fifo.takes later = Fifo.takes history := by
  induction count with
  | zero => exact ⟨history, run, rfl⟩
  | succ count ih =>
      obtain ⟨later, filled, taken⟩ := ih (Nat.lt_of_succ_lt room)
      have length : (List.replicate count value ++ [value]).length < N.size := by
        simpa using room
      have push : (queue T N).step (List.replicate count value) (.pushBack value) =
          some (.put value, List.replicate (count + 1) value) := by
        rw [List.replicate_succ']
        exact queue_step.mpr ⟨rfl, length⟩
      refine ⟨_, filled.next push, ?_⟩
      simp [Fifo.takes, taken]

/-- Beyond `2 ^ 30` places there are calls after which `size` overflows. -/
theorem size_overflows [Inhabited T] (N : Capacity) (leave : T → T) (value : T)
    (wide : 2 ^ 30 < N.size) :
    ∃ calls events stored, (queue T N).execute [] calls = some (events, stored) ∧
      ∃ buffer, (system N leave).execute default calls = some (events, buffer) ∧
        buffer.size = none := by
  obtain ⟨turned, turning, taken⟩ := taken_by_turns N value (by omega) (N.size - 1)
  obtain ⟨history, run, same⟩ :=
    filled_by_pushes value turning (N.size - 1) (by omega)
  obtain ⟨calls, executed⟩ := run.executed
  obtain ⟨buffer, ran, -⟩ := buffer_is_queue leave executed
  refine ⟨calls, history, _, executed, buffer, ran, ?_⟩
  have conserved := congrArg List.length (Fifo.run_conserves run.of_rename.unconfine)
  rw [List.length_append, List.length_replicate, List.nil_append, same, taken] at conserved
  have placed := placed_of_run (StepSystem.run_of_execute calls ran)
  rw [← conserved, same, taken] at placed
  have small : (N.size : Int) ≤ 2147483647 := N.fits
  have most : IntType.int.maxValue = 2147483647 := rfl
  have residue := residue_add (N.size - 1) (N.size - 1) (show N.size - 1 < N.size by omega)
  rw [Nat.mod_eq_of_lt (show N.size - 1 < N.size by omega), if_neg (by omega)] at residue
  rw [placed.size (by omega), if_pos]
  rw [placed.read, placed.write, residue, Nat.mod_eq_of_lt (show N.size - 1 < N.size by omega)]
  omega

/-- One place more than fits. -/
def widePlaces : Capacity := ⟨2 ^ 30 + 1, by decide, by decide⟩

theorem buffer_is_queue_wide :
    ∃ calls events stored, (queue Nat widePlaces).execute [] calls = some (events, stored) ∧
      ∃ buffer, (system widePlaces id).execute default calls = some (events, buffer) ∧
        buffer.size = none :=
  size_overflows widePlaces id 0 (Nat.lt_succ_self _)

end CircularBuffer

end MartCommon.Experimental

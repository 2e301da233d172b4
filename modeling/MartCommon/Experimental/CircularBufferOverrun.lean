import Mathlib.Data.List.OfFn
import MartCommon.Experimental.CircularBuffer

namespace MartCommon.Experimental.CircularBuffer

open Library

variable {T : Type*} {N : Capacity} {buffer : CircularBuffer T N} {taken put : Nat} {stored : List T}

/-- However often the buffer was overrun, it stores what lies between its indices. -/
theorem Placed.stores (placed : Placed buffer taken put) : ∃ stored, Stores buffer taken stored := by
  have residue := Nat.mod_lt taken N.positive
  let distance := (put + (N.size - taken % N.size)) % N.size
  have small : distance < N.size := Nat.mod_lt _ N.positive
  have turned : (taken + distance) % N.size = put % N.size := by
    have around : taken % N.size + (put + (N.size - taken % N.size)) = put + N.size := by omega
    rw [← Nat.mod_add_mod, Nat.add_mod_mod, around, Nat.add_mod_right]
  let stored := List.ofFn fun i : Fin distance => buffer.data (Ring.place N.positive taken i)
  have length : stored.length = distance := List.length_ofFn
  refine ⟨stored, ⟨placed.read, ?_⟩, fun i inside => ?_, length ▸ small⟩
  · rw [length, turned, placed.write]
  · simp only [stored, List.getElem_ofFn]

/-- Where the sum for the size fits, the sums for the stored values do. -/
theorem Stores.getFits (stores : Stores buffer taken stored) (fits : buffer.SizeFits) {i : Nat}
    (inside : i < stored.length) : buffer.GetFits i := by
  have most : IntType.int.maxValue = 2147483647 := rfl
  have small : (N.size : Int) ≤ 2147483647 := N.fits
  have writeBounds := stores.placed.write_bounds
  rw [GetFits]
  rcases stores.placed.distance stores.room with ⟨-, distance⟩ | ⟨behind, distance⟩
  · omega
  · have sum := fits behind
    omega

/-- What a push should leave: the new value is the newest, and either all older values are there or the
storage is full and the oldest one is gone. -/
def Keeps (before after : CircularBuffer T N) (value : T) : Prop :=
  ∃ size size', before.size = some size ∧ after.size = some size' ∧ 1 ≤ size' ∧
    after.get (size' - 1) = some value ∧
    ((size' = size + 1 ∧ ∀ i, 0 ≤ i → i < size → after.get i = before.get i) ∨
      (size' = N.size ∧ ∀ i, 0 ≤ i → i + 1 < N.size → after.get i = before.get (i + 1)))

/-- The write index does not catch up with the read index, and the next size does not overflow. -/
def HasRoom (buffer : CircularBuffer T N) : Prop :=
  ∃ write, next N buffer.nextWrite = some write ∧ write ≠ buffer.nextRead ∧
    (write < buffer.nextRead → write + N.size ≤ IntType.int.maxValue)

/-- A buffer whose indices are equal counts as empty. -/
theorem size_of_same (same : buffer.nextWrite = buffer.nextRead) : buffer.size = some 0 := by
  have zero : IntType.int.InRange 0 := by decide
  rw [CircularBuffer.size, same, if_pos (Int.le_refl _), Int.sub_self, IntType.result_of_inRange zero]

/-- The last place that is filled makes the indices equal. -/
theorem Stores.overrun (stores : Stores buffer taken stored) (value : T)
    (full : stored.length + 1 = N.size) :
    ∃ after, buffer.pushBack value = some after ∧ ¬Keeps buffer after value ∧ ¬HasRoom buffer := by
  have around : (taken + stored.length + 1) % N.size = taken % N.size := by
    rw [Nat.add_assoc, full, Nat.add_mod_right]
  refine ⟨_, stores.placed.pushBack value, ?_, ?_⟩
  · rintro ⟨size, size', -, found, positive, -⟩
    rw [size_of_same] at found
    · cases found
      contradiction
    · rw [around, ← stores.placed.read]
  · rintro ⟨write, found, apart, -⟩
    rw [stores.placed.write, next_mod, around, Option.some.injEq, ← stores.placed.read] at found
    exact apart found.symm

section Push

variable {after : CircularBuffer T N} {value : T}

theorem Stores.read_pushed (stores : Stores buffer taken stored)
    (later : Stores after taken (stored ++ [value])) : after.nextRead = buffer.nextRead := by
  rw [later.placed.read, stores.placed.read]

/-- Below the last place there is room exactly when the next size can be computed. -/
theorem Stores.hasRoom_iff (stores : Stores buffer taken stored)
    (later : Stores after taken (stored ++ [value])) : HasRoom buffer ↔ after.SizeFits := by
  have write : next N buffer.nextWrite = some after.nextWrite := by
    rw [stores.placed.write, next_mod, later.placed.write, List.length_append, List.length_singleton,
      ← Nat.add_assoc]
  rw [SizeFits, stores.read_pushed later]
  constructor
  · rintro ⟨index, found, -, fits⟩
    rw [write] at found
    cases found
    exact fits
  · intro fits
    refine ⟨after.nextWrite, write, ?_, fits⟩
    have apart := later.apart (List.concat_ne_nil value stored)
    rw [stores.read_pushed later] at apart
    exact apart.symm

/-- A size that can be computed after a push could be computed before it. -/
theorem Stores.sizeFits_pushed (stores : Stores buffer taken stored)
    (later : Stores after taken (stored ++ [value])) (fits : after.SizeFits) : buffer.SizeFits := by
  intro behind
  have read := stores.read_pushed later
  have lengths : (stored ++ [value]).length = stored.length + 1 := List.length_append
  have bounds := later.placed.write_bounds
  have boundsBefore := stores.placed.write_bounds
  have before := stores.placed.distance stores.room
  have moved := later.placed.distance later.room
  rw [read, lengths] at moved
  rcases moved with ⟨ahead, distance⟩ | ⟨still, distance⟩
  · omega
  · have sum := fits (read ▸ still)
    omega

/-- The new value is the newest one, and the older ones are where they were. -/
theorem Stores.keeps (stores : Stores buffer taken stored)
    (later : Stores after taken (stored ++ [value])) (fits : after.SizeFits) :
    Keeps buffer after value := by
  have fitsBefore := stores.sizeFits_pushed later fits
  have lengths : (stored ++ [value]).length = stored.length + 1 := List.length_append
  refine ⟨stored.length, (stored.length + 1 : Nat), stores.shows.size fitsBefore, ?_, ?_, ?_,
    .inl ⟨rfl, ?_⟩⟩
  · rw [later.shows.size fits, lengths]
  · omega
  · have inside : stored.length < (stored ++ [value]).length := by omega
    have newest := later.shows.get stored.length inside (later.getFits fits inside)
    rw [Int.natCast_add, Int.natCast_one, Int.add_sub_cancel, newest, List.getElem_concat_length rfl]
  · intro i positive small
    obtain ⟨place, rfl⟩ := Int.eq_ofNat_of_zero_le positive
    have inside : place < stored.length := by omega
    have insideToo : place < (stored ++ [value]).length := by omega
    rw [later.shows.get place insideToo (later.getFits fits insideToo),
      stores.shows.get place inside (stores.getFits fitsBefore inside),
      List.getElem_append_left inside]

/-- Below the last place a push keeps what is stored, as far as the size can be computed. -/
theorem Stores.kept (stores : Stores buffer taken stored) (value : T)
    (room : (stored ++ [value]).length < N.size) :
    ∃ after, buffer.pushBack value = some after ∧ (Keeps buffer after value ↔ HasRoom buffer) := by
  obtain ⟨after, pushed, later⟩ := stores.pushBack room
  refine ⟨after, pushed, ?_⟩
  rw [stores.hasRoom_iff later]
  constructor
  · rintro ⟨size, size', -, found, -⟩ behind
    by_contra overflow
    rw [later.placed.size later.room, if_pos ⟨behind, Int.not_le.mp overflow⟩] at found
    contradiction
  · exact stores.keeps later

end Push

/-- In every reachable state a push keeps the contents exactly when the write index does not catch up with
the read index and the next size does not overflow. A buffer that `N` pushes have filled counts as empty. -/
theorem push_keeps_contents [Inhabited T] {leave : T → T} {history : List (Fifo.Event T)}
    {buffer : CircularBuffer T N} (run : (system N leave).Run default history buffer) :
    (∀ value, ∃ after, buffer.pushBack value = some after ∧
      (Keeps buffer after value ↔ HasRoom buffer)) ∧
      (Fifo.takes history = [] → (Fifo.puts history).length = N.size → buffer.size = some 0) := by
  have placed := placed_of_run run
  refine ⟨fun value => ?_, fun untouched filled => ?_⟩
  · obtain ⟨stored, stores⟩ := placed.stores
    have lengths : (stored ++ [value]).length = stored.length + 1 := by
      rw [List.length_append, List.length_singleton]
    by_cases full : stored.length + 1 = N.size
    · obtain ⟨after, pushed, lost, crowded⟩ := stores.overrun value full
      exact ⟨after, pushed, iff_of_false lost crowded⟩
    · have room := stores.room
      exact stores.kept value (by omega)
  · refine size_of_same ?_
    rw [placed.read, placed.write, untouched, filled, List.length_nil, Nat.zero_mod, Nat.mod_self]

theorem push_keeps_contents_turning :
    ∃ history buffer, (system tenPlaces id).execute default turningCalls = some (history, buffer) ∧
      (∀ value, ∃ after, buffer.pushBack value = some after ∧
        (Keeps buffer after value ↔ HasRoom buffer)) ∧
        (Fifo.takes history = [] → (Fifo.puts history).length = tenPlaces.size →
          buffer.size = some 0) := by
  obtain ⟨history, buffer, executed⟩ : ∃ history buffer,
      (system tenPlaces id).execute default turningCalls = some (history, buffer) := ⟨_, _, rfl⟩
  exact ⟨history, buffer, executed, push_keeps_contents (StepSystem.run_of_execute turningCalls executed)⟩

/-- The tenth push into ten places leaves a buffer that counts as empty. -/
theorem push_keeps_contents_overrun :
    ∃ history buffer after, (system tenPlaces id).execute default
        (List.replicate 9 (.pushBack 1)) = some (history, buffer) ∧
      buffer.pushBack 1 = some after ∧ ¬Keeps buffer after 1 ∧ after.size = some 0 := by
  refine ⟨_, _, _, rfl, rfl, ?_, rfl⟩
  rintro ⟨size, size', -, found, positive, -⟩
  have none : some size' = some 0 := found.symm
  cases none
  contradiction

end MartCommon.Experimental.CircularBuffer

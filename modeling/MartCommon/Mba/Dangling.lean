import MartCommon.Mba.RefCounting

namespace MartCommon.Mba

open Library Library.RefCount

variable {Slot Thread : Type} [DecidableEq Slot] [DecidableEq Thread]

/-- A view is anchored when it refers to nothing or to static storage, when it is empty, or when the
string has a handle on the buffer that the view points into. -/
def Anchored (object : ImStr) : Prop :=
  match object.view.storage with
  | .null => True
  | .literal _ => True
  | .buffer block => object.view.size = 0 ∨ object.handle = some block

/-- The condition under which `substr &&` leaves no view without its handle behind: the string has no
handle to lose or no characters to keep. -/
def KeepsView (operation : Operation Slot) (objects : List ImStr) : Prop :=
  ∀ source ∈ operation.stripped objects, source.handle = none ∨ source.view.size = 0

instance (operation : Operation Slot) (objects : List ImStr) :
    Decidable (KeepsView operation objects) :=
  inferInstanceAs (Decidable (∀ source ∈ operation.stripped objects,
    source.handle = none ∨ source.view.size = 0))

/-- An empty view is anchored. -/
theorem Anchored.of_empty {object : ImStr} (empty : object.view.size = 0) : Anchored object := by
  unfold Anchored
  split
  · trivial
  · trivial
  · exact .inl empty

/-- New strings are anchored. -/
theorem Fresh.anchored {contents : Block → Option Text} {kind : Kind} {object : ImStr}
    (fresh : Fresh contents kind object) : Anchored object := by
  cases fresh with
  | literal array size terminated => trivial
  | stored block chars stored => exact .inr rfl

/-- Parts of anchored strings are anchored. -/
theorem Part.anchored {source object : ImStr} (part : Part source object)
    (anchored : Anchored source) : Anchored object := by
  cases part with
  | empty => trivial
  | slice view storage shorter inside =>
      unfold Anchored at anchored ⊢
      simp only [storage]
      split
      · trivial
      · trivial
      · rename_i block same
        simp only [same] at anchored
        exact anchored.imp_left fun empty => by omega

omit [DecidableEq Slot] in
/-- An operation that keeps the views leaves and creates anchored strings only. -/
theorem Origin.anchored {contents : Block → Option Text} {operation : Operation Slot}
    {objects : List ImStr} {object : ImStr} (origin : Origin contents operation objects object)
    (keeps : KeepsView operation objects) (anchored : ∀ source ∈ objects, Anchored source) :
    Anchored object := by
  cases origin with
  | fresh fresh => exact fresh.anchored
  | trusted named => trivial
  | empty => trivial
  | part member part => exact part.anchored (anchored _ member)
  | @whole source member kind terminated => exact anchored source member
  | moved moved => trivial
  | @stripped source stripped =>
      rcases keeps source stripped with bare | empty
      · have same : { source with handle := none } = source := by rw [← bare]
        rw [same]
        exact anchored source (Operation.mem_of_stripped stripped)
      · exact .of_empty empty

/-- The strings whose operations keep the views. -/
abbrev keepingStrings (Slot : Type) [DecidableEq Slot] :
    Interface Text ImStr (Operation Slot) Slot := (strings Slot).restrict KeepsView

theorem lawful_keepingStrings : Lawful (keepingStrings Slot) fun _ => Anchored :=
  lawful_of_origins (fun _ anchored => anchored) fun keeps anchored origin =>
    origin.anchored keeps anchored

/-- In every run whose calls of `substr &&` keep the views, each live string is anchored, and its
handle is one of those that the counter of its buffer counts. Where in addition no counter reaches the
end of its range, the buffer of a live string was not deallocated, whatever happens to other strings. -/
theorem views_anchored {history : List Unit} {state : Strings Slot Thread}
    (run : (machine (2 ^ 32) (keepingStrings Slot)).Run {} history state) :
    (∀ object ∈ Pool.values state.objects, Anchored object ∧
      ∀ block, object.handle = some block →
        block ∈ (strings Slot).tokensOf state ∧ block < state.memory.next ∧
        state.memory.count block = ((strings Slot).tokensOf state).count block % 2 ^ 32) ∧
    (((machine (2 ^ 32) (keepingStrings Slot)).confine
        ((keepingStrings Slot).Within (2 ^ 32))).Run {} history state →
      ∀ object ∈ Pool.values state.objects, ∀ block, object.view.storage = .buffer block →
        object.view.size ≠ 0 → state.memory.freed block = 0) := by
  have accounts : Accounts (2 ^ 32) (keepingStrings Slot) (fun _ => Anchored) state :=
    run_accounts (by decide) lawful_keepingStrings run
  constructor
  · intro object member
    refine ⟨accounts.objects object member, fun block handle => ?_⟩
    have counted : block ∈ (strings Slot).tokensOf state := mem_tokensOf member (Handle.mem_tokens handle)
    have allocated := accounts.ledger.allocated counted
    exact ⟨counted, allocated, accounts.ledger.counted block allocated⟩
  · intro bounded object member block storage nonempty
    have counted : Counted (keepingStrings Slot) state :=
      run_counted (by decide) (by decide) lawful_keepingStrings bounded
    have anchored := accounts.objects object member
    simp only [Anchored, storage, nonempty, false_or] at anchored
    exact counted.alive member (Handle.mem_tokens anchored)

/-- A string is cut by `substr &&` beyond its end of characters, which leaves it an empty view, and
another one by `substr const&`; then the strings that were cut end. -/
def cutActions : List (Action (Operation Nat) Nat Nat) :=
  [.begin 0 (.fromView .imStr (some [])), .tick 0, .finish 0 [0],
    .begin 0 (.substrMove 0 0 npos), .finish 0 [1],
    .begin 1 (.fromView .imStr (some (ascii "ab"))), .tick 1, .finish 1 [2],
    .begin 1 (.substr 2 1 npos), .tick 1, .finish 1 [3],
    .begin 0 (.destroy 1), .begin 1 (.destroy 2), .tick 1, .tick 0, .tick 0, .finish 1 [], .finish 0 []]

theorem views_anchored_cut :
    ∃ history state, (machine (2 ^ 32) (keepingStrings Nat)).Run ({} : Strings Nat Nat) history
        state ∧ ∃ object ∈ Pool.values state.objects, Anchored object ∧
        object.view = ⟨.buffer 1, 1, 1⟩ ∧ state.memory.freed 1 = 0 := by
  have executed : (((machine (2 ^ 32) (keepingStrings Nat)).confine
      ((keepingStrings Nat).Within (2 ^ 32))).execute ({} : Strings Nat Nat) cutActions).map
        (fun answer => (Pool.values answer.2.objects).map fun object => object.view) =
      some [⟨.buffer 1, 1, 1⟩, ⟨.buffer 0, 0, 0⟩] := by
    decide +kernel
  obtain ⟨⟨history, state⟩, ran, views⟩ := Option.map_eq_some_iff.mp executed
  have bounded := StepSystem.run_of_execute cutActions ran
  have run := bounded.unconfine
  obtain ⟨object, member, view⟩ : ∃ object ∈ Pool.values state.objects,
      object.view = ⟨.buffer 1, 1, 1⟩ := by
    rw [← List.mem_map, views]
    exact List.mem_cons_self
  obtain ⟨anchored, alive⟩ := views_anchored run
  refine ⟨history, state, run, object, member, (anchored object member).1, view, ?_⟩
  exact alive bounded object member 1 (by rw [view]) (by rw [view]; decide)

/-- The string keeps its characters in view while the part takes the only handle and ends. -/
def danglingActions : List (Action (Operation Nat) Nat Nat) :=
  [.begin 0 (.fromView .imStr (some (ascii "ab"))), .tick 0, .finish 0 [0],
    .begin 0 (.substrMove 0 0 1), .finish 0 [1],
    .begin 0 (.destroy 1), .tick 0, .tick 0, .finish 0 []]

theorem views_anchored_dangling :
    ∃ history state, (stringSystem Nat Nat).Run {} history state ∧
      ∃ object ∈ Pool.values state.objects, object.view = ⟨.buffer 0, 0, 2⟩ ∧
        object.handle = none ∧ ¬ Anchored object ∧ state.memory.freed 0 = 1 := by
  have executed : ((stringSystem Nat Nat).execute {} danglingActions).map
      (fun answer => (Pool.values answer.2.objects, answer.2.memory.freed 0)) =
      some ([{ kind := .imStr, view := ⟨.buffer 0, 0, 2⟩ }], 1) := by
    decide +kernel
  obtain ⟨⟨history, state⟩, ran, final⟩ := Option.map_eq_some_iff.mp executed
  obtain ⟨objects, freed⟩ := Prod.mk.inj final
  refine ⟨history, state, StepSystem.run_of_execute danglingActions ran,
    { kind := .imStr, view := ⟨.buffer 0, 0, 2⟩ }, by simp [objects], rfl, rfl, ?_, freed⟩
  simp [Anchored]

end MartCommon.Mba

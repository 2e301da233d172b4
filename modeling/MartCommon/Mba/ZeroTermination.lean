import MartCommon.Mba.RefCounting

namespace MartCommon.Mba

open Library Library.RefCount

variable {Slot Thread : Type} [DecidableEq Slot] [DecidableEq Thread]

/-- A string owns the buffer that its view points into. An `im_zstr` also has a zero after its last
character, so that its `data()` is not null. -/
structure Terminated (contents : Block → Option Text) (object : ImStr) : Prop where
  owned : ∀ block, object.view.storage = .buffer block → object.handle = some block
  zero : object.kind = .imZstr → object.view.byteAt contents object.view.size = some 0

/-- The operations around `im_zstr`: all but `substr &&`, which makes no `im_zstr`, and the promise of a
literal that nobody checks. -/
def Operation.aroundZstr : Operation Slot → Bool
  | .substrMove _ _ _ => false
  | .trustMe kind _ _ => kind = .imStr
  | _ => true

/-- The condition under which an `im_zstr` keeps its view: nothing moves out of it. -/
def KeepsZstr (operation : Operation Slot) (objects : List ImStr) : Prop :=
  ∀ source ∈ operation.moved objects, source.kind = .imStr

instance (operation : Operation Slot) (objects : List ImStr) :
    Decidable (KeepsZstr operation objects) :=
  inferInstanceAs (Decidable (∀ source ∈ operation.moved objects, source.kind = .imStr))

/-- What is terminated stays terminated. -/
theorem Terminated.mono {earlier later : Block → Option Text} {object : ImStr}
    (kept : Extends earlier later) (terminated : Terminated earlier object) :
    Terminated later object :=
  ⟨terminated.owned, fun zstr => View.byteAt_mono kept (terminated.zero zstr)⟩

/-- New strings are terminated. -/
theorem Fresh.terminated {contents : Block → Option Text} {kind : Kind} {object : ImStr}
    (fresh : Fresh contents kind object) : Terminated contents object := by
  cases fresh with
  | literal array size terminated =>
      refine ⟨fun block storage => by simp at storage, fun _ => ?_⟩
      simpa [View.byteAt] using terminated
  | stored block chars stored =>
      refine ⟨fun other storage => congrArg some (Storage.buffer.inj storage), fun _ => ?_⟩
      simp [View.byteAt, stored]

/-- The default string owns nothing and ends nowhere. -/
theorem Terminated.default {contents : Block → Option Text} :
    Terminated contents (defaultConstruct .imStr) :=
  ⟨fun block storage => by simp [defaultConstruct] at storage, fun zstr => by
    simp [defaultConstruct] at zstr⟩

/-- Parts own the buffer of their string. -/
theorem Part.terminated {contents : Block → Option Text} {source object : ImStr}
    (part : Part source object) (terminated : Terminated contents source) :
    Terminated contents object := by
  cases part with
  | empty => exact .default
  | slice view storage shorter inside =>
      exact ⟨fun block same => terminated.owned block (storage.symm.trans same), fun zstr => by
        simp at zstr⟩

omit [DecidableEq Slot] in
/-- An operation around `im_zstr` that moves out of none leaves and creates terminated strings only. -/
theorem Origin.terminated {contents : Block → Option Text} {operation : Operation Slot}
    {objects : List ImStr} {object : ImStr} (origin : Origin contents operation objects object)
    (around : operation.aroundZstr = true) (keeps : KeepsZstr operation objects)
    (terminated : ∀ source ∈ objects, Terminated contents source) :
    Terminated contents object := by
  cases origin with
  | fresh fresh => exact fresh.terminated
  | @trusted kind array size named =>
      refine ⟨fun block storage => by simp at storage, fun zstr => ?_⟩
      simp only at zstr
      simp [named, Operation.aroundZstr, zstr] at around
  | empty => exact .default
  | part member part => exact part.terminated (terminated _ member)
  | @whole source member kind zero =>
      refine ⟨(terminated source member).owned, fun zstr => ?_⟩
      exact (zero zstr).elim (terminated source member).zero id
  | @moved source moved =>
      refine ⟨fun block storage => by simp [movedFrom] at storage, fun zstr => ?_⟩
      have other : source.kind = .imStr := keeps source moved
      simp [movedFrom, other] at zstr
  | @stripped source stripped =>
      unfold Operation.stripped at stripped
      split at stripped
      · simp [Operation.aroundZstr] at around
      · contradiction

/-- The strings with the operations around `im_zstr` that move out of none. -/
abbrev keepingZstrs (Slot : Type) [DecidableEq Slot] :
    Interface Text ImStr (Operation Slot) Slot :=
  (strings Slot).restrict fun operation objects =>
    operation.aroundZstr = true ∧ KeepsZstr operation objects

theorem lawful_keepingZstrs : Lawful (keepingZstrs Slot) Terminated :=
  lawful_of_origins Terminated.mono fun met terminated origin =>
    origin.terminated met.1 met.2 terminated

/-- In every run that moves out of no `im_zstr`, each live `im_zstr` has a zero after its last
character. Where in addition no counter reaches the end of its range, the buffer of its characters was
not deallocated. -/
theorem zstr_terminated {history : List Unit} {state : Strings Slot Thread}
    (run : (machine (2 ^ 32) (keepingZstrs Slot)).Run {} history state) :
    (∀ object ∈ Pool.values state.objects, object.kind = .imZstr →
      object.view.storage ≠ .null ∧
      object.view.byteAt state.memory.content object.view.size = some 0) ∧
    (((machine (2 ^ 32) (keepingZstrs Slot)).confine
        ((keepingZstrs Slot).Within (2 ^ 32))).Run {} history state →
      ∀ object ∈ Pool.values state.objects, object.kind = .imZstr →
        ∀ block, object.view.storage = .buffer block → state.memory.freed block = 0) := by
  have accounts : Accounts (2 ^ 32) (keepingZstrs Slot) Terminated state :=
    run_accounts (by decide) lawful_keepingZstrs run
  constructor
  · intro object member zstr
    have zero := (accounts.objects object member).zero zstr
    refine ⟨fun null => ?_, zero⟩
    simp [View.byteAt, null] at zero
  · intro bounded object member zstr block storage
    have counted : Counted (keepingZstrs Slot) state :=
      run_counted (by decide) (by decide) lawful_keepingZstrs bounded
    exact counted.alive member (Handle.mem_tokens ((accounts.objects object member).owned block storage))

/-- An `im_zstr` is copied, assigned and made from strings that are cut. -/
def zstrActions : List (Action (Operation Nat) Nat Nat) :=
  [.begin 0 (.fromView .imStr (some (ascii "ab"))), .tick 0, .finish 0 [0],
    .begin 0 (.substr 0 0 1), .tick 0, .finish 0 [1],
    .begin 0 (.createZstr 1), .tick 0, .tick 0, .tick 0, .finish 0 [2],
    .begin 1 (.fromLiteral .imZstr (ascii "x" ++ [0])), .finish 1 [3],
    .begin 1 (.copyAssign 3 2), .tick 1, .finish 1 []]

theorem zstr_terminated_created :
    ∃ history state, (machine (2 ^ 32) (keepingZstrs Nat)).Run ({} : Strings Nat Nat) history
        state ∧ ∃ object ∈ Pool.values state.objects, object.kind = .imZstr ∧
        object.view = ⟨.buffer 1, 0, 1⟩ ∧ object.view.byteAt state.memory.content 1 = some 0 ∧
        state.memory.freed 1 = 0 := by
  have executed : (((machine (2 ^ 32) (keepingZstrs Nat)).confine
      ((keepingZstrs Nat).Within (2 ^ 32))).execute ({} : Strings Nat Nat) zstrActions).map
        (fun answer => Pool.values answer.2.objects) =
      some [⟨.imZstr, ⟨.buffer 1, 0, 1⟩, some 1⟩, ⟨.imZstr, ⟨.buffer 1, 0, 1⟩, some 1⟩,
        ⟨.imStr, ⟨.buffer 0, 0, 1⟩, some 0⟩, ⟨.imStr, ⟨.buffer 0, 0, 2⟩, some 0⟩] := by
    decide +kernel
  obtain ⟨⟨history, state⟩, ran, objects⟩ := Option.map_eq_some_iff.mp executed
  have bounded := StepSystem.run_of_execute zstrActions ran
  have run := bounded.unconfine
  have member : (⟨.imZstr, ⟨.buffer 1, 0, 1⟩, some 1⟩ : ImStr) ∈ Pool.values state.objects := by
    rw [objects]
    exact List.mem_cons_self
  obtain ⟨zero, alive⟩ := zstr_terminated run
  exact ⟨history, state, run, _, member, rfl, rfl, (zero _ member rfl).2,
    alive bounded _ member rfl 1 rfl⟩

/-- The move constructor takes the view of a string literal away from an `im_zstr`. -/
def emptiedActions : List (Action (Operation Nat) Nat Nat) :=
  [.begin 0 (.fromLiteral .imZstr (ascii "x" ++ [0])), .finish 0 [0],
    .begin 0 (.moveConstruct .imZstr 0), .finish 0 [1]]

theorem zstr_terminated_moved :
    ∃ history state, (stringSystem Nat Nat).Run {} history state ∧
      ∃ object ∈ Pool.values state.objects, object.kind = .imZstr ∧
        object.view.storage = .null ∧
        object.view.byteAt state.memory.content object.view.size ≠ some 0 := by
  have executed : ((stringSystem Nat Nat).execute {} emptiedActions).map
      (fun answer => Pool.values answer.2.objects) =
      some [{ kind := .imZstr }, { kind := .imZstr, view := ⟨.literal [120, 0], 0, 1⟩ }] := by
    decide +kernel
  obtain ⟨⟨history, state⟩, ran, objects⟩ := Option.map_eq_some_iff.mp executed
  refine ⟨history, state, StepSystem.run_of_execute emptiedActions ran, { kind := .imZstr },
    by simp [objects], rfl, rfl, ?_⟩
  simp [View.byteAt]

end MartCommon.Mba

import MartCommon.Library.Pool
import MartCommon.Library.RefCount
import MartCommon.Library.StepSystem
import Mathlib.Algebra.Order.Group.Multiset
import Mathlib.Algebra.BigOperators.Group.Multiset.Basic

namespace MartCommon.Library.RefCount

variable {Content Object Operation Slot Thread : Type}

/-- The memory names the blocks in the order of their allocation. Each block has its content, its
counter and the number of times it was given back. -/
structure Memory (Content : Type) where
  next : Block := 0
  content : Block → Option Content := fun _ => none
  count : Block → Nat := fun _ => 0
  freed : Block → Nat := fun _ => 0

/-- An operation leaves something in each of its sources, or nothing where the source ends, and it
creates new objects. -/
structure Outcome (Object : Type) where
  kept : List (Option Object) := []
  created : List Object := []

/-- The objects that are alive after an operation. -/
def Outcome.objects (outcome : Outcome Object) : List Object :=
  outcome.kept.reduceOption ++ outcome.created

/-- An interface gives each operation its source objects and its program, and each object the handles
it counts for. No program means that the operation does not apply to such objects. -/
structure Interface (Content Object Operation Slot : Type) where
  sources : Operation → List Slot
  body : Operation → List Object → Option (Program Content (Outcome Object))
  handles : Object → Multiset Block

/-- The restricted interface offers only the operations that meet the condition. -/
def Interface.restrict (interface : Interface Content Object Operation Slot)
    (condition : Operation → List Object → Prop)
    [∀ operation objects, Decidable (condition operation objects)] :
    Interface Content Object Operation Slot where
  sources := interface.sources
  body operation objects :=
    if condition operation objects then interface.body operation objects else none
  handles := interface.handles

/-- An operation in progress has its sources in hand, with the counted handles they brought and the
ones its own updates added. -/
structure Job (Content Object Slot : Type) where
  names : List Slot
  held : Multiset Block
  program : Program Content (Outcome Object)

structure State (Content Object Slot Thread : Type) where
  memory : Memory Content := {}
  objects : Pool Slot Object := []
  jobs : Pool Thread (Job Content Object Slot) := []

inductive Action (Operation Slot Thread : Type) where
  | begin (thread : Thread) (operation : Operation)
  | tick (thread : Thread)
  | finish (thread : Thread) (targets : List Slot)

section Memory

variable (memory : Memory Content)

/-- A fresh block starts with one handle. -/
def Memory.alloc (content : Content) : Memory Content :=
  { memory with
    next := memory.next + 1
    content := Function.update memory.content memory.next (some content)
    count := Function.update memory.count memory.next 1 }

def Memory.setCount (block : Block) (count : Nat) : Memory Content :=
  { memory with count := Function.update memory.count block count }

def Memory.giveBack (block : Block) : Memory Content :=
  { memory with freed := Function.update memory.freed block (memory.freed block + 1) }

/-- One atomic update of the memory, of the handles in hand and of the rest of the program. The
counters wrap around at the modulus. A block that was given back has no content to read. -/
def advance (modulus : Nat) (held : Multiset Block) {Result : Type} :
    Program Content Result → Option (Memory Content × Multiset Block × Program Content Result)
  | .done _ => none
  | .abort => none
  | .alloc content next =>
      some (memory.alloc content, memory.next ::ₘ held, next memory.next)
  | .fetchAdd block amount next =>
      some (memory.setCount block ((memory.count block + amount) % modulus),
        held + Multiset.replicate amount block, next)
  | .fetchSub block next =>
      some (memory.setCount block ((memory.count block + (modulus - 1)) % modulus),
        held.erase block, next (memory.count block))
  | .dealloc block next => some (memory.giveBack block, held, next)
  | .read block next =>
      if memory.freed block = 0 then
        (memory.content block).map fun content => (memory, held, next content)
      else none

end Memory

/-- The names that an object or an operation in progress uses. -/
def State.names (state : State Content Object Slot Thread) : List Slot :=
  state.objects.map Prod.fst ++ (Pool.values state.jobs).flatMap Job.names

section Steps

variable [DecidableEq Slot] [DecidableEq Thread]

/-- The objects that stay alive return under their names. -/
def restore (names : List Slot) (kept : List (Option Object)) : Pool Slot Object :=
  (names.zip kept).filterMap fun entry => entry.2.map fun object => (entry.1, object)

/-- An operation begins on objects that no other operation uses. Each tick is one atomic update of its
program. At the end its objects come back and the created ones get names of their own. -/
def machine (modulus : Nat) (interface : Interface Content Object Operation Slot) :
    StepSystem (State Content Object Slot Thread) (Action Operation Slot Thread) Unit where
  step state
    | .begin thread operation =>
        if thread ∈ state.jobs.map Prod.fst then none
        else
          (Pool.takeAll (interface.sources operation) state.objects).bind fun taken =>
            (interface.body operation taken.1).map fun program =>
              ((), { state with
                objects := taken.2
                jobs := (thread, ⟨interface.sources operation,
                  (taken.1.map interface.handles).sum, program⟩) :: state.jobs })
    | .tick thread =>
        (Pool.take thread state.jobs).bind fun taken =>
          (advance state.memory modulus taken.1.held taken.1.program).map fun after =>
            ((), { state with
              memory := after.1
              jobs := (thread, ⟨taken.1.names, after.2.1, after.2.2⟩) :: taken.2 })
    | .finish thread targets =>
        (Pool.take thread state.jobs).bind fun taken =>
          match taken.1.program with
          | .done outcome =>
              if targets.length = outcome.created.length ∧ targets.Nodup ∧
                  ∀ target ∈ targets, target ∉ state.names then
                some ((), { state with
                  objects := restore taken.1.names outcome.kept ++
                    targets.zip outcome.created ++ state.objects
                  jobs := taken.2 })
              else none
          | _ => none

end Steps

end MartCommon.Library.RefCount

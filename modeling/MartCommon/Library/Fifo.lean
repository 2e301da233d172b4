import MartCommon.Library.StepSystem

namespace MartCommon.Library.Fifo

/-- A queue accepts a value at its end or gives away its oldest value. -/
inductive Event (Value : Type*) where
  | put (value : Value)
  | take (value : Value)

variable {Value : Type*}

/-- The event names the value, so a take is possible only at the front. -/
inductive Action (Value : Type*) where
  | put (value : Value)
  | take

def step (queue : List Value) : Action Value → Option (Event Value × List Value)
  | .put value => some (.put value, queue ++ [value])
  | .take =>
      match queue with
      | [] => none
      | value :: rest => some (.take value, rest)

def system (Value : Type*) : StepSystem (List Value) (Action Value) (Event Value) := ⟨step⟩

/-- The accepted values, oldest first. -/
def puts : List (Event Value) → List Value
  | [] => []
  | .put value :: rest => value :: puts rest
  | .take _ :: rest => puts rest

/-- The values given away, oldest first. -/
def takes : List (Event Value) → List Value
  | [] => []
  | .put _ :: rest => takes rest
  | .take value :: rest => value :: takes rest

@[simp] theorem puts_append (first second : List (Event Value)) :
    puts (first ++ second) = puts first ++ puts second := by
  induction first with
  | nil => rfl
  | cons event rest ih => cases event <;> simp [puts, ih]

@[simp] theorem takes_append (first second : List (Event Value)) :
    takes (first ++ second) = takes first ++ takes second := by
  induction first with
  | nil => rfl
  | cons event rest ih => cases event <;> simp [takes, ih]

/-- The values given away, followed by the stored ones, are the accepted values in order. -/
theorem run_conserves {start queue : List Value} {history : List (Event Value)}
    (run : (system Value).Run start history queue) :
    takes history ++ queue = start ++ puts history := by
  refine run.invariant (fun history queue => takes history ++ queue = start ++ puts history)
    (by simp [takes, puts]) ?_
  intro history before action event after conserved stepped
  cases action with
  | put value =>
      simp only [system, step, Option.some.injEq, Prod.mk.injEq] at stepped
      obtain ⟨rfl, rfl⟩ := stepped
      simp only [takes_append, takes, List.append_nil, puts_append, puts]
      rw [← List.append_assoc, conserved, List.append_assoc]
  | take =>
      cases before with
      | nil => simp [system, step] at stepped
      | cons value rest =>
          simp only [system, step, Option.some.injEq, Prod.mk.injEq] at stepped
          obtain ⟨rfl, rfl⟩ := stepped
          simpa [takes, puts] using conserved

end MartCommon.Library.Fifo

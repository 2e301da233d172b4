import MartCommon.Log.Logger

namespace MartCommon.Log

open Library

/-- `space_string_litteral` -/
def spaceStringLitteral : Text := List.replicate 105 32

variable {Sink Name : Type}

def Logger.bumpIndentLevel (logger : Logger Sink) : Logger Sink :=
  if logger.spacer.length < spaceStringLitteral.length - 2 then
    { logger with spacer := spaceStringLitteral.take (logger.spacer.length + 2) }
  else logger

def Logger.removeIndentLevel (logger : Logger Sink) : Logger Sink :=
  if logger.spacer.length ≥ 2 then
    -- `remove_suffix( 2 )`
    { logger with spacer := logger.spacer.take (logger.spacer.length - 2) }
  else logger

/-- The loggers of a program. -/
abbrev Loggers (Sink Name : Type) := Name → Logger Sink

/-- `IndentLevelGuard` with the member `_log`, which is null in an object that was moved from. -/
structure IndentLevelGuard (Name : Type) where
  log : Option Name

section Guards

variable [DecidableEq Name]

/-- `bumpIdentLevelGuarded()`, with the constructor of the guard. -/
def bumpIdentLevelGuarded (logger : Name) (loggers : Loggers Sink Name) :
    IndentLevelGuard Name × Loggers Sink Name :=
  (⟨some logger⟩, Function.update loggers logger (loggers logger).bumpIndentLevel)

/-- `~IndentLevelGuard()` -/
def IndentLevelGuard.destroy (guard : IndentLevelGuard Name) (loggers : Loggers Sink Name) :
    Loggers Sink Name :=
  match guard.log with
  | none => loggers
  | some log => Function.update loggers log (loggers log).removeIndentLevel

/-- Guards that end in the reverse order of their beginnings: each of them ends before the guards that
come after it begin. -/
inductive Nesting (Name : Type) where
  | done
  | guarded (logger : Name) (inside after : Nesting Name)

/-- The loggers after all guards have ended. For each guard there are the indentation just before it is
created and the one after its destruction. -/
def Nesting.run : Nesting Name → Loggers Sink Name → List (Nat × Nat) × Loggers Sink Name
  | .done, loggers => ([], loggers)
  | .guarded logger inside after, loggers =>
      let created := bumpIdentLevelGuarded logger loggers
      let inner := inside.run created.2
      let closed := created.1.destroy inner.2
      let later := after.run closed
      (((loggers logger).spacer.length, (closed logger).spacer.length) :: inner.1 ++ later.1, later.2)

/-- The largest number of guards of a logger that exist at once. -/
def Nesting.depth (logger : Name) : Nesting Name → Nat
  | .done => 0
  | .guarded other inside after =>
      max (inside.depth logger + if other = logger then 1 else 0) (after.depth logger)

/-- Every guard leaves the indentation that it found. -/
def Nesting.Balanced (nesting : Nesting Name) (loggers : Loggers Sink Name) : Prop :=
  ∀ record ∈ (nesting.run loggers).1, record.2 = record.1

/-- No logger gets more guards at once than it has room for in the string of spaces. -/
def Nesting.Fits (nesting : Nesting Name) (loggers : Loggers Sink Name) : Prop :=
  ∀ logger, nesting.depth logger = 0 ∨
    (loggers logger).spacer.length + 2 * nesting.depth logger < spaceStringLitteral.length

end Guards

theorem spacer_bumpIndentLevel (logger : Logger Sink) :
    logger.bumpIndentLevel.spacer.length =
      if logger.spacer.length < 103 then logger.spacer.length + 2 else logger.spacer.length := by
  rw [Logger.bumpIndentLevel, show spaceStringLitteral.length - 2 = 103 from rfl]
  split
  · rename_i room
    rw [List.length_take, show spaceStringLitteral.length = 105 from rfl]
    omega
  · rfl

theorem spacer_removeIndentLevel (logger : Logger Sink) :
    logger.removeIndentLevel.spacer.length =
      if logger.spacer.length ≥ 2 then logger.spacer.length - 2 else logger.spacer.length := by
  rw [Logger.removeIndentLevel]
  split
  · rw [List.length_take]
    omega
  · rfl

section Balance

variable [DecidableEq Name] {loggers other : Loggers Sink Name} {nesting inside after : Nesting Name}
  {logger : Name}

/-- The room depends on the indentation only. -/
theorem fits_congr (same : ∀ name, (loggers name).spacer.length = (other name).spacer.length) :
    nesting.Fits loggers ↔ nesting.Fits other := by
  simp only [Nesting.Fits, same]

theorem created_eq (logger : Name) (loggers : Loggers Sink Name) :
    (bumpIdentLevelGuarded logger loggers).2 =
      Function.update loggers logger (loggers logger).bumpIndentLevel := rfl

theorem destroy_created (logger : Name) (loggers other : Loggers Sink Name) :
    (bumpIdentLevelGuarded logger loggers).1.destroy other =
      Function.update other logger (other logger).removeIndentLevel := rfl

/-- A logger with room is indented by two, and the others are left alone. -/
theorem spacer_created (room : (loggers logger).spacer.length < 103) (name : Name) :
    ((bumpIdentLevelGuarded logger loggers).2 name).spacer.length =
      (loggers name).spacer.length + if logger = name then 2 else 0 := by
  rw [created_eq]
  by_cases same : logger = name
  · subst same
    rw [Function.update_self, spacer_bumpIndentLevel, if_pos room, if_pos rfl]
  · rw [Function.update_of_ne (Ne.symm same), if_neg same, Nat.add_zero]

/-- The end of the guard takes these two places away again. -/
theorem spacer_closed (room : (loggers logger).spacer.length < 103)
    (kept : ∀ name, (other name).spacer.length =
      ((bumpIdentLevelGuarded logger loggers).2 name).spacer.length) (name : Name) :
    (((bumpIdentLevelGuarded logger loggers).1.destroy other) name).spacer.length =
      (loggers name).spacer.length := by
  have opened := (kept name).trans (spacer_created room name)
  rw [destroy_created]
  by_cases same : logger = name
  · subst same
    rw [if_pos rfl] at opened
    rw [Function.update_self, spacer_removeIndentLevel, opened, if_pos (Nat.le_add_left 2 _),
      Nat.add_sub_cancel]
  · rw [if_neg same, Nat.add_zero] at opened
    rw [Function.update_of_ne (Ne.symm same), opened]

/-- A guard that found no room takes two places away that it did not add. -/
theorem spacer_closed_full (full : ¬ (loggers logger).spacer.length < 103)
    (kept : (other logger).spacer.length =
      ((bumpIdentLevelGuarded logger loggers).2 logger).spacer.length) :
    (((bumpIdentLevelGuarded logger loggers).1.destroy other) logger).spacer.length + 2 =
      (loggers logger).spacer.length := by
  rw [created_eq, Function.update_self, spacer_bumpIndentLevel, if_neg full] at kept
  rw [destroy_created, Function.update_self, spacer_removeIndentLevel, kept, if_pos (by omega)]
  omega

/-- Guards fit where the outer one finds room, and those inside fit behind it. -/
theorem fits_guarded : (Nesting.guarded logger inside after).Fits loggers ↔
    (loggers logger).spacer.length < 103 ∧
      inside.Fits (bumpIdentLevelGuarded logger loggers).2 ∧ after.Fits loggers := by
  have size : spaceStringLitteral.length = 105 := rfl
  simp only [Nesting.Fits, Nesting.depth, size]
  constructor
  · intro fits
    have room : (loggers logger).spacer.length < 103 := by
      have here := fits logger
      rw [if_pos rfl] at here
      omega
    refine ⟨room, fun name => ?_, fun name => ?_⟩
    · have here := fits name
      rw [spacer_created room]
      by_cases same : logger = name
      · rw [if_pos same] at here ⊢
        omega
      · rw [if_neg same] at here ⊢
        omega
    · have here := fits name
      omega
  · rintro ⟨room, deeper, later⟩ name
    have below := deeper name
    have next := later name
    rw [spacer_created room] at below
    by_cases same : logger = name
    · subst same
      rw [if_pos rfl] at below ⊢
      omega
    · rw [if_neg same] at below ⊢
      omega

/-- Guards that fit leave every logger with the indentation that it had. -/
theorem spacer_run (fits : nesting.Fits loggers) :
    ∀ name, ((nesting.run loggers).2 name).spacer.length = (loggers name).spacer.length := by
  induction nesting generalizing loggers with
  | done => exact fun _ => rfl
  | guarded logger inside after deeper later =>
      obtain ⟨room, within, behind⟩ := fits_guarded.mp fits
      have closed := spacer_closed room (deeper within)
      exact fun name => (later ((fits_congr closed).mpr behind) name).trans (closed name)

/-- The indentation after a guard's destruction is the one just before its creation for all guards of a
well-nested sequence, if and only if they fit. -/
theorem guards_balanced_iff (nesting : Nesting Name) (loggers : Loggers Sink Name) :
    nesting.Balanced loggers ↔ nesting.Fits loggers := by
  induction nesting generalizing loggers with
  | done => exact iff_of_true nofun fun _ => .inl rfl
  | guarded logger inside after deeper later =>
      rw [fits_guarded, Nesting.Balanced, Nesting.run, List.cons_append, List.forall_mem_cons,
        List.forall_mem_append]
      constructor
      · rintro ⟨closed, within, behind⟩
        have within := (deeper _).mp within
        have room : (loggers logger).spacer.length < 103 := by
          by_contra full
          have shorter := spacer_closed_full full (spacer_run within logger)
          omega
        have restored := spacer_closed room (spacer_run within)
        exact ⟨room, within, (fits_congr restored).mp ((later _).mp behind)⟩
      · rintro ⟨room, within, behind⟩
        have restored := spacer_closed room (spacer_run within)
        exact ⟨restored logger, (deeper _).mpr within,
          (later _).mpr ((fits_congr restored).mpr behind)⟩

/-- After 52 bumps there are 104 spaces. A guard does not add any then, but it takes two away. -/
theorem guards_unbalanced :
    let logger : Logger Nat := Nat.repeat Logger.bumpIndentLevel 52 { loggingName := [] }
    let nesting : Nesting Unit := .guarded () .done .done
    logger.spacer.length = 104 ∧ (nesting.run fun _ => logger).1 = [(104, 102)] ∧
      ¬ nesting.Balanced fun _ => logger := by
  have ran : ((Nesting.guarded () .done .done).run fun _ =>
      Nat.repeat Logger.bumpIndentLevel 52 ({ loggingName := [] } : Logger Nat)).1 = [(104, 102)] := by
    decide +kernel
  refine ⟨by decide +kernel, ran, fun balanced => ?_⟩
  rw [Nesting.Balanced, ran, List.forall_mem_singleton] at balanced
  exact absurd balanced (by decide)

end Balance

end MartCommon.Log

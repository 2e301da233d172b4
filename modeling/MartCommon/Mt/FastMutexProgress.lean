import MartCommon.Mt.FastMutex

namespace MartCommon.Mt.FastMutex

open Library

/-- A thread is inside `lock()` and has not obtained the flag. -/
def Pc.wanting : Pc → Bool
  | .locking | .slow | .spinning => true
  | _ => false

/-- A thread is inside `unlock()`. -/
def Pc.leaving : Pc → Bool
  | .unlocking | .resetting | .releasing | .clearing => true
  | _ => false

/-- The steps that are left of `unlock()` at most. -/
def Pc.way : Pc → Nat
  | .unlocking => 4
  | .resetting => 3
  | .releasing => 2
  | .clearing => 1
  | _ => 0

variable {Thread : Type*}

/-- The owner of the inner mutex is in one of the steps that need it, or it is inside with its note. -/
def Owned (state : State Thread) : Prop :=
  ∀ owner, state.mutex.mx = some owner →
    (state.pc owner).owning = true ∨ state.inside owner = true ∧ state.mutex.mxLockedByMe = true

variable [DecidableEq Thread]

/-- The action is a step of the thread. -/
def Action.advances (thread : Thread) : Action Thread → Bool
  | .step other => other = thread
  | _ => false

section Owner

variable {before after state : State Thread} {thread : Thread} {pc : Pc} {event : Event Thread}
  {action : Action Thread} {history : List (Event Thread)}

omit [DecidableEq Thread] in
/-- Outside of the steps that need the inner mutex its owner has a note. -/
theorem Owned.noted (owned : Owned state) (owns : state.mutex.mx = some thread)
    (elsewhere : (state.pc thread).owning = false) :
    state.inside thread = true ∧ state.mutex.mxLockedByMe = true := by
  rcases owned thread owns with here | note
  · rw [elsewhere] at here
    contradiction
  · exact note

theorem Owned.goto (owned : Owned state)
    (keeps : state.mutex.mx = some thread →
      pc.owning = true ∨ state.inside thread = true ∧ state.mutex.mxLockedByMe = true) :
    Owned (state.goto thread pc) := by
  intro owner owns
  by_cases same : owner = thread
  · subst same
    show (Function.update state.pc owner pc owner).owning = true ∨ _
    rw [Function.update_self]
    exact keeps owns
  · show (Function.update state.pc thread pc owner).owning = true ∨ _
    rw [Function.update_of_ne same]
    exact owned owner owns

omit [DecidableEq Thread] in
/-- While the flag is clear the owner of the inner mutex spins. -/
theorem Owned.spins (safe : Safe state) (owned : Owned state) (clear : state.mutex.flag = false)
    (owns : state.mutex.mx = some thread) : state.pc thread = .spinning := by
  obtain ⟨vacant, unnoted⟩ := safe.vacant clear
  rcases owned thread owns with here | ⟨inside, -⟩
  · have outside : ¬ (state.pc thread).active = true := by
      intro active
      have inside := safe.active thread active
      rw [vacant thread] at inside
      contradiction
    cases at_ : state.pc thread with
    | spinning => rfl
    | noting | resetting | releasing =>
        rw [at_] at outside
        exact absurd rfl outside
    | outside | trying | locking | slow | asserting | unlocking | clearing =>
        rw [at_] at here
        contradiction
  · rw [vacant thread] at inside
    contradiction

theorem Owned.acquire (safe : Safe state) (owned : Owned state) (clear : state.mutex.flag = false)
    (keeps : state.pc thread = .spinning → pc.owning = true) : Owned (state.acquire thread pc) := by
  intro owner owns
  have spins := owned.spins safe clear owns
  by_cases same : owner = thread
  · subst same
    show (Function.update state.pc owner pc owner).owning = true ∨ _
    rw [Function.update_self]
    exact .inl (keeps spins)
  · show (Function.update state.pc thread pc owner).owning = true ∨ _
    rw [Function.update_of_ne same, spins]
    exact .inl rfl

/-- A test of the flag leaves the owner of the inner mutex where it needs it. -/
theorem Owned.test {found : Event Thread} {waiting obtained : Pc} (safe : Safe before)
    (owned : Owned before) (waits : Owned (before.goto thread waiting))
    (keeps : before.pc thread = .spinning → obtained.owning = true)
    (tested : (if before.mutex.flag then some (found, before.goto thread waiting)
      else some (.acquired thread, before.acquire thread obtained)) = some (event, after)) :
    Owned after := by
  split at tested
  · cases tested
    exact waits
  · rename_i clear
    cases tested
    exact owned.acquire safe (Bool.eq_false_iff.mpr clear) keeps

theorem owned_advance (safe : Safe before) (owned : Owned before)
    (stepped : advance before thread = some (event, after)) : Owned after := by
  unfold advance at stepped
  split at stepped
  · contradiction
  · rename_i trying
    have waits : Owned (before.goto thread .outside) :=
      owned.goto fun owns => .inr (owned.noted owns (by rw [trying]; rfl))
    exact owned.test safe waits (fun spins => absurd (trying.symm.trans spins) (by decide)) stepped
  · rename_i locking
    have waits : Owned (before.goto thread .slow) :=
      owned.goto fun owns => .inr (owned.noted owns (by rw [locking]; rfl))
    exact owned.test safe waits (fun spins => absurd (locking.symm.trans spins) (by decide)) stepped
  · split at stepped
    · contradiction
    · cases stepped
      intro owner owns
      obtain rfl : thread = owner := Option.some.inj owns
      exact .inl (by simp [State.goto, Pc.owning])
  · have waits : Owned (before.goto thread .spinning) := owned.goto fun _ => .inl rfl
    exact owned.test safe waits (fun _ => rfl) stepped
  · rename_i noting
    cases stepped
    intro owner owns
    have here := safe.owning thread (by rw [noting]; rfl)
    obtain rfl : thread = owner := Option.some.inj (here.symm.trans owns)
    exact .inr ⟨safe.active thread (by rw [noting]; rfl), rfl⟩
  · rename_i asserting
    have inside := safe.active thread (by rw [asserting]; rfl)
    have flag := safe.flagged.mpr ⟨thread, inside⟩
    rw [flag, if_pos rfl] at stepped
    cases stepped
    exact owned.goto fun owns => .inr (owned.noted owns (by rw [asserting]; rfl))
  · rename_i unlocking
    split at stepped
    · cases stepped
      exact owned.goto fun _ => .inl rfl
    · rename_i unnoted
      cases stepped
      refine owned.goto fun owns => ?_
      exact absurd (owned.noted owns (by rw [unlocking]; rfl)).2 unnoted
  · rename_i resetting
    cases stepped
    intro owner owns
    have here := safe.owning thread (by rw [resetting]; rfl)
    obtain rfl : thread = owner := Option.some.inj (here.symm.trans owns)
    exact .inl (by simp [State.goto, Pc.owning])
  · cases stepped
    intro owner owns
    contradiction
  · rename_i clearing
    cases stepped
    intro owner owns
    have unnoted := safe.unnoted (safe.active thread (by rw [clearing]; rfl)) (by rw [clearing]; rfl)
    have apart : owner ≠ thread := by
      rintro rfl
      have note := (owned.noted owns (by rw [clearing]; rfl)).2
      rw [unnoted] at note
      contradiction
    rcases owned owner owns with here | ⟨-, note⟩
    · exact .inl (by simpa [State.goto, apart] using here)
    · rw [unnoted] at note
      contradiction

theorem owned_step (safe : Safe before) (owned : Owned before)
    (stepped : step before action = some (event, after)) : Owned after := by
  cases action with
  | callLock thread | callTryLock thread | callUnlock thread =>
      obtain ⟨free, same⟩ := Option.ite_none_right_eq_some.mp stepped
      cases same
      have outside : before.pc thread = .outside := by simp_all only
      exact owned.goto fun owns => .inr (owned.noted owns (by rw [outside]; rfl))
  | step thread => exact owned_advance safe owned stepped

theorem run_owned (run : (system Thread).Run {} history state) : Safe state ∧ Owned state := by
  apply run.invariant fun _ (state : State Thread) => Safe state ∧ Owned state
  · refine ⟨safe_initial, ?_⟩
    intro owner owns
    contradiction
  · rintro history before action event after ⟨safe, owned⟩ stepped
    exact ⟨(safe.step stepped).1, owned_step safe owned stepped⟩

end Owner

section Progress

variable {before after state final : State Thread} {thread other : Thread} {event : Event Thread}
  {action : Action Thread} {actions : List (Action Thread)} {history events : List (Event Thread)}

/-- A thread in `unlock()` is never held up, and each of its steps shortens its way out. -/
theorem advance_of_leaving (leaving : (state.pc thread).leaving = true) :
    ∃ event after, advance state thread = some (event, after) ∧
      (event = .released thread ∨
        (after.pc thread).leaving = true ∧ (after.pc thread).way < (state.pc thread).way) := by
  cases at_ : state.pc thread with
  | unlocking =>
      cases note : state.mutex.mxLockedByMe with
      | true =>
          refine ⟨_, _, by rw [advance, at_]; exact if_pos note, .inr ?_⟩
          simp [State.goto, Pc.leaving, Pc.way]
      | false =>
          refine ⟨_, _, by rw [advance, at_]; exact if_neg (Bool.eq_false_iff.mp note), .inr ?_⟩
          simp [State.goto, Pc.leaving, Pc.way]
  | resetting =>
      refine ⟨_, _, by rw [advance, at_], .inr ?_⟩
      simp [State.goto, Pc.leaving, Pc.way]
  | releasing =>
      refine ⟨_, _, by rw [advance, at_], .inr ?_⟩
      simp [State.goto, Pc.leaving, Pc.way]
  | clearing => exact ⟨_, _, by rw [advance, at_], .inl rfl⟩
  | outside | trying | locking | slow | spinning | noting | asserting =>
      rw [at_] at leaving
      contradiction

/-- A step takes only its own thread to another place. -/
theorem advance_pc (advanced : advance before thread = some (event, after)) :
    ∃ pc, after.pc = Function.update before.pc thread pc := by
  unfold advance at advanced
  repeat' split at advanced
  all_goals first
    | contradiction
    | cases advanced
      exact ⟨_, rfl⟩

/-- The steps of other threads leave a thread where it is. -/
theorem step_pc (apart : ¬ action.advances thread = true) (busy : (before.pc thread).leaving = true)
    (stepped : step before action = some (event, after)) : after.pc thread = before.pc thread := by
  cases action with
  | callLock other | callTryLock other | callUnlock other =>
      obtain ⟨free, same⟩ := Option.ite_none_right_eq_some.mp stepped
      have outside : before.pc other = .outside := by simp_all only
      cases same
      have different : thread ≠ other := by
        rintro rfl
        rw [outside] at busy
        contradiction
      exact Function.update_of_ne different _ _
  | step other =>
      have different : thread ≠ other := fun same => apart (decide_eq_true same.symm)
      obtain ⟨pc, moved⟩ := advance_pc stepped
      rw [moved, Function.update_of_ne different]

/-- Whatever the other threads do meanwhile, a thread in `unlock()` has cleared the flag once it has taken
the steps of its way. -/
theorem execute_leaving (leaving : (state.pc thread).leaving = true)
    (executed : (system Thread).execute state actions = some (events, final)) :
    .released thread ∈ events ∨ (final.pc thread).leaving = true ∧
      actions.countP (Action.advances thread) + (final.pc thread).way ≤ (state.pc thread).way := by
  induction actions generalizing state events with
  | nil =>
      obtain ⟨-, rfl⟩ := StepSystem.execute_nil.mp executed
      exact .inr ⟨leaving, Nat.le_of_eq (Nat.zero_add _)⟩
  | cons action rest ih =>
      obtain ⟨event, middle, later, stepped, continued, rfl⟩ := StepSystem.execute_cons_iff.mp executed
      by_cases own : action.advances thread = true
      · cases action with
        | step other =>
            obtain rfl : other = thread := of_decide_eq_true own
            obtain ⟨_, _, advanced, ended⟩ := advance_of_leaving leaving
            obtain ⟨rfl, rfl⟩ := Prod.mk.inj (Option.some.inj (advanced.symm.trans stepped))
            rcases ended with rfl | ⟨still, less⟩
            · exact .inl List.mem_cons_self
            · rcases ih still continued with out | ⟨inside, most⟩
              · exact .inl (List.mem_cons_of_mem _ out)
              · rw [List.countP_cons_of_pos own]
                exact .inr ⟨inside, by omega⟩
        | callLock | callTryLock | callUnlock => contradiction
      · have same := step_pc own leaving stepped
        rcases ih (same.symm ▸ leaving) continued with out | ⟨inside, most⟩
        · exact .inl (List.mem_cons_of_mem _ out)
        · rw [List.countP_cons_of_neg own, ← same]
          exact .inr ⟨inside, most⟩

/-- While the lock is free, a step obtains it, or it takes the free inner mutex. -/
theorem advance_of_clear (safe : Safe state) (clear : state.mutex.flag = false)
    (advanced : advance state thread = some (event, after)) :
    event = .acquired thread ∨
      state.mutex.mx = none ∧ after.mutex.flag = false ∧ after.mutex.mx = some thread := by
  have passive : ¬ (state.pc thread).active = true := by
    intro active
    have inside := safe.active thread active
    rw [(safe.vacant clear).1 thread] at inside
    contradiction
  cases at_ : state.pc thread with
  | outside =>
      rw [advance, at_] at advanced
      contradiction
  | trying | locking | spinning =>
      rw [advance, at_, clear] at advanced
      cases advanced
      exact .inl rfl
  | slow =>
      rw [advance, at_] at advanced
      dsimp only at advanced
      split at advanced
      · contradiction
      · rename_i free
        cases advanced
        exact .inr ⟨free, clear, rfl⟩
  | noting | asserting | unlocking | resetting | releasing | clearing =>
      rw [at_] at passive
      exact absurd rfl passive

/-- While the lock is free, a thread in `lock()` can go on, or the one that spins can. -/
theorem exists_advance (safe : Safe state) (owned : Owned state) (clear : state.mutex.flag = false)
    (wanting : (state.pc thread).wanting = true) :
    ∃ other, (state.pc other).wanting = true ∧ advance state other ≠ none := by
  have tests : ∀ other, state.pc other = .spinning → advance state other ≠ none := by
    intro other spins
    rw [advance, spins, clear]
    exact Option.some_ne_none _
  cases at_ : state.pc thread with
  | locking =>
      refine ⟨thread, wanting, ?_⟩
      rw [advance, at_, clear]
      exact Option.some_ne_none _
  | spinning => exact ⟨thread, wanting, tests thread at_⟩
  | slow =>
      cases owner : state.mutex.mx with
      | none =>
          refine ⟨thread, wanting, ?_⟩
          rw [advance, at_]
          dsimp only
          rw [owner]
          exact Option.some_ne_none _
      | some other =>
          have spins := owned.spins safe clear owner
          exact ⟨other, by rw [spins]; rfl, tests other spins⟩
  | outside | trying | noting | asserting | unlocking | resetting | releasing | clearing =>
      rw [at_] at wanting
      contradiction

/-- No thread waits for ever without reason. Whatever the interleaving, a thread in `unlock()` is never held
up and has cleared the flag after four of its steps. While the lock is free the inner mutex is free or its
owner spins, and where the lock is wanted a thread that wants it can go on. Of any two steps that the threads
take then, one obtains the lock. One thread at most spins. -/
theorem fastMutex_progress (run : (system Thread).Run {} history state) :
    (∀ thread, (state.pc thread).leaving = true → advance state thread ≠ none ∧
      ∀ actions events final, (system Thread).execute state actions = some (events, final) →
        4 ≤ actions.countP (Action.advances thread) → .released thread ∈ events) ∧
    (state.mutex.flag = false → ∀ owner, state.mutex.mx = some owner → state.pc owner = .spinning) ∧
    (state.mutex.flag = false → ∀ thread, (state.pc thread).wanting = true →
      ∃ other, (state.pc other).wanting = true ∧ advance state other ≠ none) ∧
    (state.mutex.flag = false → ∀ first second events final,
      (system Thread).execute state [.step first, .step second] = some (events, final) →
        ∃ thread, .acquired thread ∈ events) ∧
    ∀ first second, state.pc first = .spinning → state.pc second = .spinning → first = second := by
  obtain ⟨safe, owned⟩ := run_owned run
  refine ⟨?_, fun clear owner owns => owned.spins safe clear owns,
    fun clear thread wanting => exists_advance safe owned clear wanting, ?_, ?_⟩
  · intro thread leaving
    constructor
    · obtain ⟨event, after, advanced, -⟩ := advance_of_leaving leaving
      rw [advanced]
      exact Option.some_ne_none _
    · intro actions events final executed enough
      rcases execute_leaving leaving executed with out | ⟨inside, most⟩
      · exact out
      · have longest : (state.pc thread).way ≤ 4 := by
          cases state.pc thread <;> decide
        have shortest : 0 < (final.pc thread).way := by
          cases at_ : final.pc thread <;> rw [at_] at inside <;> first | contradiction | decide
        omega
  · intro clear first second events final executed
    obtain ⟨event, middle, later, stepped, continued, rfl⟩ := StepSystem.execute_cons_iff.mp executed
    obtain ⟨event', last, _, stepped', ended, rfl⟩ := StepSystem.execute_cons_iff.mp continued
    have safe' : Safe middle := (safe.advance stepped).1
    rcases advance_of_clear safe clear stepped with rfl | ⟨-, clear', owner⟩
    · exact ⟨first, List.mem_cons_self⟩
    · rcases advance_of_clear safe' clear' stepped' with rfl | ⟨free, -⟩
      · exact ⟨second, List.mem_cons_of_mem _ List.mem_cons_self⟩
      · rw [owner] at free
        contradiction
  · intro first second spins spins'
    have owner := safe.owning first (by rw [spins]; rfl)
    have owner' := safe.owning second (by rw [spins']; rfl)
    exact Option.some.inj (owner.symm.trans owner')

/-- The holder leaves while the other thread spins. -/
def leavingActions : List (Action Bool) := contendedActions ++ [.callUnlock false, .step false]

theorem fastMutex_progress_contended :
    ∃ history state, (system Bool).Run {} history state ∧ state.pc false = .clearing ∧
      state.pc true = .spinning ∧ advance state false ≠ none := by
  obtain ⟨⟨history, state⟩, executed, places⟩ : ∃ ran,
      (system Bool).execute {} leavingActions = some ran ∧
        ran.2.pc false = .clearing ∧ ran.2.pc true = .spinning := ⟨_, rfl, rfl, rfl⟩
  have run := StepSystem.run_of_execute leavingActions executed
  have leaving : (state.pc false).leaving = true := by rw [places.1]; rfl
  exact ⟨history, state, run, places.1, places.2, ((fastMutex_progress run).1 false leaving).1⟩

end Progress

end MartCommon.Mt.FastMutex

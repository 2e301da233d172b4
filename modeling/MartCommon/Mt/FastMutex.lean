import MartCommon.Library.StepSystem

namespace MartCommon.Mt

open Library

/-- The members of `FastMutexImpl`. `mx` names the owner of the inner mutex. -/
structure FastMutex (Thread : Type*) where
  mx : Option Thread := none
  flag : Bool := false
  mxLockedByMe : Bool := false

namespace FastMutex

/-- The next atomic step of a thread. -/
inductive Pc where
  | outside
  /-- `try_lock()`: the `test_and_set` of a direct call -/
  | trying
  /-- `lock()`: the `test_and_set` of its `try_lock()` -/
  | locking
  /-- `_lock_slow()`: `_mx.lock()` -/
  | slow
  /-- `_lock_slow()`: the `test_and_set` of the spin loop -/
  | spinning
  /-- `_lock_slow()`: `_mx_locked_by_me = true` -/
  | noting
  /-- `lock()`: `assert( _flag.test_and_set() )` -/
  | asserting
  /-- `unlock()`: the read of `_mx_locked_by_me` -/
  | unlocking
  /-- `unlock()`: `_mx_locked_by_me = false` -/
  | resetting
  /-- `unlock()`: `_mx.unlock()` -/
  | releasing
  /-- `unlock()`: `_flag.clear()` -/
  | clearing
  deriving DecidableEq, Repr

/-- `inside` marks the threads between the `test_and_set` that obtained the lock and the
`_flag.clear` that gives it back. -/
structure State (Thread : Type*) where
  mutex : FastMutex Thread := {}
  pc : Thread → Pc := fun _ => .outside
  inside : Thread → Bool := fun _ => false

/-- A thread enters a member function or takes the next step of the one that it is in. -/
inductive Action (Thread : Type*) where
  | callLock (thread : Thread)
  | callTryLock (thread : Thread)
  | callUnlock (thread : Thread)
  | step (thread : Thread)

inductive Event (Thread : Type*) where
  | silent
  | acquired (thread : Thread)
  | refused (thread : Thread)
  | released (thread : Thread)
  | assertionFailed (thread : Thread)
  deriving DecidableEq

variable {Thread : Type*} [DecidableEq Thread]

/-- The thread continues at another step. -/
def State.goto (state : State Thread) (thread : Thread) (pc : Pc) : State Thread :=
  { state with pc := Function.update state.pc thread pc }

/-- The thread finds the flag clear, sets it and continues at another step. -/
def State.acquire (state : State Thread) (thread : Thread) (pc : Pc) : State Thread :=
  { state with
    mutex := { state.mutex with flag := true }
    pc := Function.update state.pc thread pc
    inside := Function.update state.inside thread true }

/-- The next atomic step of a thread. `_mx.lock()` waits while the inner mutex has an owner. -/
def advance (state : State Thread) (thread : Thread) : Option (Event Thread × State Thread) :=
  match state.pc thread with
  | .outside => none
  | .trying =>
      if state.mutex.flag then some (.refused thread, state.goto thread .outside)
      else some (.acquired thread, state.acquire thread .outside)
  | .locking =>
      if state.mutex.flag then some (.silent, state.goto thread .slow)
      else some (.acquired thread, state.acquire thread .asserting)
  | .slow =>
      match state.mutex.mx with
      | some _ => none
      | none =>
          some (.silent, { state.goto thread .spinning with
            mutex := { state.mutex with mx := some thread } })
  | .spinning =>
      if state.mutex.flag then some (.silent, state.goto thread .spinning)
      else some (.acquired thread, state.acquire thread .noting)
  | .noting =>
      some (.silent, { state.goto thread .asserting with
        mutex := { state.mutex with mxLockedByMe := true } })
  | .asserting =>
      if state.mutex.flag then some (.silent, state.goto thread .outside)
      else some (.assertionFailed thread, { state.goto thread .outside with
        mutex := { state.mutex with flag := true } })
  | .unlocking =>
      if state.mutex.mxLockedByMe then some (.silent, state.goto thread .resetting)
      else some (.silent, state.goto thread .clearing)
  | .resetting =>
      some (.silent, { state.goto thread .releasing with
        mutex := { state.mutex with mxLockedByMe := false } })
  | .releasing =>
      some (.silent, { state.goto thread .clearing with
        mutex := { state.mutex with mx := none } })
  | .clearing =>
      some (.released thread, { state.goto thread .outside with
        mutex := { state.mutex with flag := false }
        inside := Function.update state.inside thread false })

/-- A thread calls `unlock()` only while it holds the lock. It may call the others at any time. -/
def step (state : State Thread) : Action Thread → Option (Event Thread × State Thread)
  | .callLock thread =>
      if state.pc thread = .outside then some (.silent, state.goto thread .locking) else none
  | .callTryLock thread =>
      if state.pc thread = .outside then some (.silent, state.goto thread .trying) else none
  | .callUnlock thread =>
      if state.pc thread = .outside ∧ state.inside thread = true then
        some (.silent, state.goto thread .unlocking)
      else none
  | .step thread => advance state thread

def system (Thread : Type*) [DecidableEq Thread] :
    StepSystem (State Thread) (Action Thread) (Event Thread) := ⟨step⟩

/-- These steps belong to a thread that obtained the flag. -/
def Pc.active : Pc → Bool
  | .noting | .asserting | .unlocking | .resetting | .releasing | .clearing => true
  | _ => false

/-- These steps belong to a thread that owns the inner mutex. -/
def Pc.owning : Pc → Bool
  | .spinning | .noting | .resetting | .releasing => true
  | _ => false

/-- At these steps a thread has not yet set `_mx_locked_by_me`, or it has reset it. -/
def Pc.unnoted : Pc → Bool
  | .spinning | .noting | .releasing | .clearing => true
  | _ => false

/-- One thread at most is inside, exactly while the flag is set. The note is set only while that
thread owns the inner mutex. -/
structure Safe (state : State Thread) : Prop where
  unique : ∀ first second, state.inside first = true → state.inside second = true → first = second
  flagged : state.mutex.flag = true ↔ ∃ thread, state.inside thread = true
  active : ∀ thread, (state.pc thread).active = true → state.inside thread = true
  owning : ∀ thread, (state.pc thread).owning = true → state.mutex.mx = some thread
  noted : state.mutex.mxLockedByMe = true → ∃ thread, state.inside thread = true ∧
    state.mutex.mx = some thread ∧ (state.pc thread).unnoted = false

omit [DecidableEq Thread] in
theorem safe_initial : Safe ({} : State Thread) where
  unique := by simp
  flagged := by simp
  active := by simp [Pc.active]
  owning := by simp [Pc.owning]
  noted := by simp

omit [DecidableEq Thread] in
/-- A thread at an unnoted step rules out the note. -/
theorem Safe.unnoted {state : State Thread} (safe : Safe state) {thread : Thread}
    (inside : state.inside thread = true) (quiet : (state.pc thread).unnoted = true) :
    state.mutex.mxLockedByMe = false := by
  by_contra note
  obtain ⟨owner, ownerInside, _, loud⟩ := safe.noted (by simpa using note)
  rw [safe.unique owner thread ownerInside inside, quiet] at loud
  contradiction

omit [DecidableEq Thread] in
/-- No thread is inside while the flag is clear, and then the note is clear too. -/
theorem Safe.vacant {state : State Thread} (safe : Safe state) (clear : state.mutex.flag = false) :
    (∀ thread, state.inside thread = false) ∧ state.mutex.mxLockedByMe = false := by
  have vacant : ∀ thread, state.inside thread = false := by
    intro thread
    by_contra inside
    have := safe.flagged.mpr ⟨thread, by simpa using inside⟩
    simp [clear] at this
  refine ⟨vacant, ?_⟩
  by_contra note
  obtain ⟨owner, inside, _⟩ := safe.noted (by simpa using note)
  simp [vacant owner] at inside

/-- A thread may go to a step whose demands it meets. -/
theorem Safe.goto {state : State Thread} (safe : Safe state) {thread : Thread} {pc : Pc}
    (active : pc.active = true → state.inside thread = true)
    (owning : pc.owning = true → state.mutex.mx = some thread)
    (noted : state.mutex.mxLockedByMe = true → state.inside thread = true →
      pc.unnoted = false) :
    Safe (state.goto thread pc) where
  unique := safe.unique
  flagged := safe.flagged
  active := by
    intro other activeOther
    by_cases same : other = thread
    · subst other
      exact active (by simpa [State.goto] using activeOther)
    · exact safe.active other (by simpa [State.goto, same] using activeOther)
  owning := by
    intro other owningOther
    by_cases same : other = thread
    · subst other
      exact owning (by simpa [State.goto] using owningOther)
    · exact safe.owning other (by simpa [State.goto, same] using owningOther)
  noted := by
    intro note
    obtain ⟨owner, inside, owns, loud⟩ := safe.noted note
    refine ⟨owner, inside, owns, ?_⟩
    by_cases same : owner = thread
    · subst owner
      simpa [State.goto] using noted note inside
    · simpa [State.goto, same] using loud

/-- A thread that finds the flag clear is the only one inside. -/
theorem Safe.acquire {state : State Thread} (safe : Safe state) {thread : Thread} {pc : Pc}
    (clear : state.mutex.flag = false)
    (owning : pc.owning = true → state.mutex.mx = some thread) :
    Safe (state.acquire thread pc) := by
  obtain ⟨vacant, unnoted⟩ := safe.vacant clear
  have only : ∀ other, (state.acquire thread pc).inside other = true → other = thread := by
    intro other inside
    by_contra different
    simp [State.acquire, different, vacant other] at inside
  exact {
    unique := fun first second firstInside secondInside =>
      (only first firstInside).trans (only second secondInside).symm
    flagged := by
      simp only [State.acquire, true_iff]
      exact ⟨thread, by simp⟩
    active := by
      intro other active
      by_cases same : other = thread
      · simp [State.acquire, same]
      · have := safe.active other (by simpa [State.acquire, same] using active)
        simp [vacant other] at this
    owning := by
      intro other owningOther
      by_cases same : other = thread
      · subst other
        exact owning (by simpa [State.acquire] using owningOther)
      · exact safe.owning other (by simpa [State.acquire, same] using owningOther)
    noted := by simp [State.acquire, unnoted] }

/-- A thread inside, at its `_flag.clear`, leaves no thread inside. -/
theorem Safe.clear {state : State Thread} (safe : Safe state) {thread : Thread}
    (clearing : state.pc thread = .clearing) :
    Safe { state.goto thread .outside with
      mutex := { state.mutex with flag := false }
      inside := Function.update state.inside thread false } := by
  have inside := safe.active thread (by simp [clearing, Pc.active])
  have unnoted := safe.unnoted inside (by simp [clearing, Pc.unnoted])
  have vacant : ∀ other, Function.update state.inside thread false other = false := by
    intro other
    by_cases same : other = thread
    · simp [same]
    · by_contra insideOther
      exact same (safe.unique other thread (by simpa [same] using insideOther) inside)
  exact {
    unique := by simp [vacant]
    flagged := by simp [vacant]
    active := by
      intro other active
      by_cases same : other = thread
      · simp [State.goto, same, Pc.active] at active
      · exact absurd (safe.unique other thread
          (safe.active other (by simpa [State.goto, same] using active)) inside) same
    owning := by
      intro other owning
      by_cases same : other = thread
      · simp [State.goto, same, Pc.owning] at owning
      · exact safe.owning other (by simpa [State.goto, same] using owning)
    noted := by simp [unnoted] }

/-- The victim of a fast thread takes the free inner mutex and starts to spin. -/
theorem Safe.lockInner {state : State Thread} (safe : Safe state) {thread : Thread}
    (free : state.mutex.mx = none) :
    Safe { state.goto thread .spinning with
      mutex := { state.mutex with mx := some thread } } where
  unique := safe.unique
  flagged := safe.flagged
  active := by
    intro other active
    by_cases same : other = thread
    · simp [State.goto, same, Pc.active] at active
    · exact safe.active other (by simpa [State.goto, same] using active)
  owning := by
    intro other owning
    by_cases same : other = thread
    · rw [same]
    · have := safe.owning other (by simpa [State.goto, same] using owning)
      simp [free] at this
  noted := by
    intro note
    obtain ⟨owner, _, owns, _⟩ := safe.noted note
    simp [free] at owns

/-- The owner of the inner mutex notes it after it obtained the flag. -/
theorem Safe.note {state : State Thread} (safe : Safe state) {thread : Thread}
    (noting : state.pc thread = .noting) :
    Safe { state.goto thread .asserting with
      mutex := { state.mutex with mxLockedByMe := true } } := by
  have inside := safe.active thread (by simp [noting, Pc.active])
  have owns := safe.owning thread (by simp [noting, Pc.owning])
  have moved : Safe (state.goto thread .asserting) :=
    safe.goto (fun _ => inside) (by simp [Pc.owning]) (by simp [Pc.unnoted])
  exact { moved with noted := fun _ => ⟨thread, inside, owns, by simp [State.goto, Pc.unnoted]⟩ }

/-- The holder takes its note back and still owns the inner mutex. -/
theorem Safe.reset {state : State Thread} (safe : Safe state) {thread : Thread}
    (resetting : state.pc thread = .resetting) :
    Safe { state.goto thread .releasing with
      mutex := { state.mutex with mxLockedByMe := false } } where
  unique := safe.unique
  flagged := safe.flagged
  active := by
    intro other active
    by_cases same : other = thread
    · subst other
      exact safe.active thread (by simp [resetting, Pc.active])
    · exact safe.active other (by simpa [State.goto, same] using active)
  owning := by
    intro other owning
    by_cases same : other = thread
    · subst other
      exact safe.owning thread (by simp [resetting, Pc.owning])
    · exact safe.owning other (by simpa [State.goto, same] using owning)
  noted := by simp

/-- The holder releases the inner mutex that it owns, before it clears the flag. -/
theorem Safe.release {state : State Thread} (safe : Safe state) {thread : Thread}
    (releasing : state.pc thread = .releasing) :
    Safe { state.goto thread .clearing with
      mutex := { state.mutex with mx := none } } := by
  have inside := safe.active thread (by simp [releasing, Pc.active])
  have owns := safe.owning thread (by simp [releasing, Pc.owning])
  have unnoted := safe.unnoted inside (by simp [releasing, Pc.unnoted])
  exact {
    unique := safe.unique
    flagged := safe.flagged
    active := by
      intro other active
      by_cases same : other = thread
      · exact same ▸ inside
      · exact safe.active other (by simpa [State.goto, same] using active)
    owning := by
      intro other owning
      by_cases same : other = thread
      · simp [State.goto, same, Pc.owning] at owning
      · have ownsOther := safe.owning other (by simpa [State.goto, same] using owning)
        rw [owns, Option.some.injEq] at ownsOther
        exact absurd ownsOther.symm same
    noted := by simp [unnoted] }

/-- A test of the flag keeps the mutex safe where a thread that finds it set may go on. -/
theorem Safe.test {before after : State Thread} {thread : Thread} {event found : Event Thread}
    {waiting obtained : Pc} (safe : Safe before) (waits : Safe (before.goto thread waiting))
    (owning : obtained.owning = true → before.mutex.mx = some thread)
    (quiet : ∀ other, found ≠ .assertionFailed other)
    (tested : (if before.mutex.flag then some (found, before.goto thread waiting)
      else some (.acquired thread, before.acquire thread obtained)) = some (event, after)) :
    Safe after ∧ ∀ other, event ≠ .assertionFailed other := by
  split at tested
  · cases tested
    exact ⟨waits, quiet⟩
  · rename_i clear
    cases tested
    exact ⟨safe.acquire (by simpa using clear) owning, by simp⟩

/-- Every atomic step keeps the mutex safe, and no assertion fails. -/
theorem Safe.advance {before after : State Thread} {thread : Thread} {event : Event Thread}
    (safe : Safe before) (stepped : advance before thread = some (event, after)) :
    Safe after ∧ ∀ other, event ≠ .assertionFailed other := by
  unfold FastMutex.advance at stepped
  split at stepped
  · contradiction
  · have waits : Safe (before.goto thread .outside) :=
      safe.goto (by simp [Pc.active]) (by simp [Pc.owning]) (by simp [Pc.unnoted])
    exact safe.test waits (by simp [Pc.owning]) (by simp) stepped
  · have waits : Safe (before.goto thread .slow) :=
      safe.goto (by simp [Pc.active]) (by simp [Pc.owning]) (by simp [Pc.unnoted])
    exact safe.test waits (by simp [Pc.owning]) (by simp) stepped
  · split at stepped
    · contradiction
    · rename_i free
      cases stepped
      exact ⟨safe.lockInner free, by simp⟩
  · rename_i spinning
    have owns := safe.owning thread (by simp [spinning, Pc.owning])
    have waits : Safe (before.goto thread .spinning) := by
      apply safe.goto (by simp [Pc.active]) (fun _ => owns)
      intro note inside
      have unnoted := safe.unnoted inside (by simp [spinning, Pc.unnoted])
      simp [note] at unnoted
    exact safe.test waits (fun _ => owns) (by simp) stepped
  · rename_i noting
    cases stepped
    exact ⟨safe.note noting, by simp⟩
  · rename_i asserting
    have inside := safe.active thread (by simp [asserting, Pc.active])
    have flag := safe.flagged.mpr ⟨thread, inside⟩
    simp only [flag, ↓reduceIte, Option.some.injEq, Prod.mk.injEq] at stepped
    obtain ⟨rfl, rfl⟩ := stepped
    exact ⟨safe.goto (by simp [Pc.active]) (by simp [Pc.owning]) (by simp [Pc.unnoted]), by simp⟩
  · rename_i unlocking
    have inside := safe.active thread (by simp [unlocking, Pc.active])
    split at stepped
    · rename_i note
      obtain ⟨owner, ownerInside, owns, _⟩ := safe.noted note
      have same := safe.unique owner thread ownerInside inside
      cases stepped
      exact ⟨safe.goto (fun _ => inside) (fun _ => same ▸ owns) (by simp [Pc.unnoted]), by simp⟩
    · rename_i note
      cases stepped
      exact ⟨safe.goto (fun _ => inside) (by simp [Pc.owning]) (fun note' => absurd note' note),
        by simp⟩
  · rename_i resetting
    cases stepped
    exact ⟨safe.reset resetting, by simp⟩
  · rename_i releasing
    cases stepped
    exact ⟨safe.release releasing, by simp⟩
  · rename_i clearing
    cases stepped
    exact ⟨safe.clear clearing, by simp⟩

/-- Calls keep the mutex safe as well. -/
theorem Safe.step {before after : State Thread} {action : Action Thread} {event : Event Thread}
    (safe : Safe before) (stepped : step before action = some (event, after)) :
    Safe after ∧ ∀ other, event ≠ .assertionFailed other := by
  cases action with
  | callLock thread | callTryLock thread =>
      simp only [FastMutex.step, Option.ite_none_right_eq_some, Option.some.injEq,
        Prod.mk.injEq] at stepped
      obtain ⟨_, rfl, rfl⟩ := stepped
      exact ⟨safe.goto (by simp [Pc.active]) (by simp [Pc.owning]) (by simp [Pc.unnoted]), by simp⟩
  | callUnlock thread =>
      simp only [FastMutex.step, Option.ite_none_right_eq_some, Option.some.injEq,
        Prod.mk.injEq] at stepped
      obtain ⟨⟨_, inside⟩, rfl, rfl⟩ := stepped
      exact ⟨safe.goto (fun _ => inside) (by simp [Pc.owning]) (by simp [Pc.unnoted]), by simp⟩
  | step thread => exact safe.advance stepped

/-- Every interleaving keeps the mutex safe and raises no assertion. -/
theorem run_safe {history : List (Event Thread)} {state : State Thread}
    (run : (system Thread).Run {} history state) :
    Safe state ∧ ∀ event ∈ history, ∀ thread, event ≠ .assertionFailed thread := by
  refine run.invariant (fun history state =>
    Safe state ∧ ∀ event ∈ history, ∀ thread, event ≠ .assertionFailed thread)
    ⟨safe_initial, by simp⟩ ?_
  intro history before action event after kept stepped
  obtain ⟨safe, passed⟩ := kept
  obtain ⟨safe', passes⟩ := safe.step stepped
  refine ⟨safe', ?_⟩
  intro seen member
  rcases List.mem_append.mp member with old | new
  · exact passed seen old
  · rw [List.mem_singleton.mp new]
    exact passes

/-- At most one thread is between a successful `lock` or `try_lock` and the `_flag.clear` of the
matching `unlock`. Only that thread accesses `_mx_locked_by_me`, which is set only while it owns
the inner mutex. The inner mutex is unlocked by its owner, and the assertion holds. -/
theorem fastMutex_exclusion {history : List (Event Thread)} {state : State Thread}
    (run : (system Thread).Run {} history state) :
    (∀ first second, state.inside first = true → state.inside second = true → first = second) ∧
      (∀ thread, state.pc thread ∈ [.noting, .unlocking, .resetting] →
        state.mutex.flag = true ∧ state.inside thread = true) ∧
      (state.mutex.mxLockedByMe = true →
        ∃ thread, state.inside thread = true ∧ state.mutex.mx = some thread) ∧
      (∀ thread, state.pc thread = .releasing → state.mutex.mx = some thread) ∧
      (∀ thread, state.pc thread = .asserting → state.mutex.flag = true) ∧
      ∀ thread, .assertionFailed thread ∉ history := by
  obtain ⟨safe, passed⟩ := run_safe run
  refine ⟨safe.unique, ?_, ?_, ?_, ?_, fun thread member => passed _ member thread rfl⟩
  · intro thread accessing
    have inside : state.inside thread = true := by
      apply safe.active
      simp only [List.mem_cons, List.not_mem_nil, or_false] at accessing
      rcases accessing with at_ | at_ | at_ <;> simp [at_, Pc.active]
    exact ⟨safe.flagged.mpr ⟨thread, inside⟩, inside⟩
  · intro note
    obtain ⟨thread, inside, owns, _⟩ := safe.noted note
    exact ⟨thread, inside, owns⟩
  · intro thread releasing
    exact safe.owning thread (by simp [releasing, Pc.owning])
  · intro thread asserting
    exact safe.flagged.mpr ⟨thread, safe.active thread (by simp [asserting, Pc.active])⟩

/-- A second thread owns the inner mutex and spins while the first thread holds the lock. -/
def contendedActions : List (Action Bool) :=
  [.callLock false, .step false, .step false, .callLock true, .step true, .step true, .step true]

theorem fastMutex_exclusion_contended : ∃ history state,
    (system Bool).execute {} contendedActions = some (history, state) ∧
      state.pc true = .spinning ∧ state.mutex.mx = some true ∧
      ∀ thread, state.inside thread = true → thread = false :=
  ⟨_, _, rfl, rfl, rfl, fun thread inside =>
    (fastMutex_exclusion (StepSystem.run_of_execute contendedActions rfl)).1
      thread false inside rfl⟩

end FastMutex

end MartCommon.Mt

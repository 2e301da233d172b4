import MartCommon.Library.Duration
import MartCommon.Library.StepSystem
import Mathlib.Order.Lattice
import Mathlib.Data.Int.Order.Basic

namespace MartCommon.Common

open Library Library.Duration

/-- A `Timer`. `_start_time` counts ticks of the steady clock, `_timeout` those of the default clock. -/
structure Timer where
  startTime : Int
  timeout : Int := -1

namespace Timer

/-- `Timer()` -/
def construct (now : Int) : Timer := { startTime := now }

/-- `Timer( timeout )` -/
def constructTimeout (timeout now : Int) : Timer := { startTime := now, timeout := timeout }

variable (ticks : Ratio) (timer : Timer)

/-- `elapsed<Dur>()`, where a tick of the steady clock is `unit` of its units. -/
def elapsed (unit : Ratio) (now : Int) : Option Int := do
  let passed ← count (now - timer.startTime)
  durationCast unit passed

/-- `reset()` reads the clock twice. A tick of the steady clock is `ticks` of the default clock. -/
def reset (now later : Int) : Option (Int × Timer) :=
  (timer.elapsed ticks now).map fun passed => (passed, { timer with startTime := later })

/-- The time since the start and the timeout in their common unit. -/
def common (now : Int) : Option (Int × Int) := do
  let passed ← count (now - timer.startTime)
  let passed ← count (passed * ticks.num)
  let timeout ← count (timer.timeout * ticks.den)
  pure (passed, timeout)

/-- `remaining<Dur>()`, where the common unit is `unit` of its units. -/
def remaining (unit : Ratio) (now : Int) : Option Int := do
  let (passed, timeout) ← timer.common ticks now
  let left ← count (timeout - passed)
  let units ← durationCast unit left
  pure (max units 0)

def hasTimedOut (now : Int) : Option Bool := do
  let (passed, timeout) ← timer.common ticks now
  pure (passed > timeout)

end Timer

/-- The time goes on, or the timer is reset while it does between the two readings. -/
inductive TimerAction where
  | wait (ticks : Nat)
  | reset (between : Nat)

/-- A reset returns the elapsed time. -/
inductive TimerEvent where
  | waited (ticks : Nat)
  | reset (elapsed : Int) (between : Nat)

/-- A timer and the steady clock. -/
structure Ticking where
  timer : Timer
  clock : Int

/-- The runs end where a time is out of range. -/
def ticking (ticks : Ratio) : StepSystem Ticking TimerAction TimerEvent where
  step state
    | .wait passed => do
        let clock ← count (state.clock + passed)
        pure (.waited passed, { state with clock := clock })
    | .reset between => do
        let later ← count (state.clock + between)
        let (elapsed, timer) ← state.timer.reset ticks state.clock later
        pure (.reset elapsed between, { timer := timer, clock := later })

/-- What the resets returned and the time between their readings, in the common unit of the clocks. -/
def accounted (ticks : Ratio) : List TimerEvent → Int
  | [] => 0
  | .waited _ :: rest => accounted ticks rest
  | .reset elapsed between :: rest => elapsed * ticks.den + between * ticks.num + accounted ticks rest

/-- How often the timer was reset. -/
def resets : List TimerEvent → Nat
  | [] => 0
  | .waited _ :: rest => resets rest
  | .reset _ _ :: rest => resets rest + 1

/-- `PeriodicScheduler`. `_interval` is a number of microseconds, `_lastInvocation` counts ticks of the
default clock. -/
structure PeriodicScheduler where
  interval : Int
  lastInvocation : Int
  cnt : Int := 0

namespace PeriodicScheduler

def construct (interval now : Int) : PeriodicScheduler := { interval := interval, lastInvocation := now }

variable (resolution : Int) (scheduler : PeriodicScheduler)

/-- A microsecond has `resolution` ticks of the default clock. -/
def getNextWakeTime : Option Int := do
  let period ← count (resolution * scheduler.interval)
  count (scheduler.lastInvocation + period)

/-- `sleep()` gives the duration of its `sleep_for`, if there is one. -/
def sleep (now : Int) : Option (Option Int × PeriodicScheduler) := do
  let wakeTime ← scheduler.getNextWakeTime resolution
  let sleepDuration ← count (wakeTime - now)
  let cnt ← count (scheduler.cnt + 1)
  pure (if sleepDuration > 0 then some sleepDuration else none,
    { scheduler with lastInvocation := wakeTime, cnt := cnt })

def invocationCnt : Int := scheduler.cnt + 1

def loopCnt : Int := scheduler.cnt

/-- `runtime<Dur>()` -/
def runtime (unit : Ratio) (now : Int) : Option Int := do
  let since ← count (now - scheduler.lastInvocation)
  let intervals ← count (scheduler.interval * scheduler.cnt)
  let before ← count (resolution * intervals)
  let whole ← count (since + before)
  durationCast unit whole

/-- `remainingIntervalTime<Dur>()` -/
def remainingIntervalTime (unit : Ratio) (now : Int) : Option Int := do
  let wakeTime ← scheduler.getNextWakeTime resolution
  let left ← count (wakeTime - now)
  durationCast unit left

end PeriodicScheduler

/-- A turn of the loop: how long its body takes, how much longer than asked for `sleep_for` sleeps, and how
far the clock is set meanwhile. -/
structure Turn where
  body : Nat
  late : Nat
  set : Int := 0
  setAsleep : Int := 0

/-- The turn that ended with an invocation, what the clock showed at the end of its body, whether
`sleep_for` was called then, and what the clock showed when the next invocation began. -/
structure Invocation where
  turn : Turn
  ended : Int
  slept : Option Int
  began : Int

/-- A loop whose body is executed by a scheduler, at the beginning of an invocation. -/
structure Loop where
  scheduler : PeriodicScheduler
  clock : Int

/-- The runs end where a time is out of range. -/
def loop (resolution : Int) : StepSystem Loop Turn Invocation where
  step state turn := do
    let ended := state.clock + turn.body + turn.set
    let (slept, scheduler) ← state.scheduler.sleep resolution ended
    let began := slept.elim ended fun duration => ended + duration + turn.late + turn.setAsleep
    pure (⟨turn, ended, slept, began⟩, ⟨scheduler, began⟩)

/-- The loop starts as soon as its scheduler is there. -/
def Loop.begin (interval start : Int) : Loop := ⟨.construct interval start, start⟩

section Timers

variable {ticks : Ratio} {timer : Timer} {start timeout now : Int} {history : List TimerEvent}
  {state : Ticking}

/-- Where the elapsed time has a count, it is cut to whole units. -/
theorem elapsed_eq_some {unit : Ratio} {passed : Int} (elapsed : timer.elapsed unit now = some passed) :
    durationCast unit (now - timer.startTime) = some passed := by
  rw [Timer.elapsed, Option.bind_eq_bind, Option.bind_eq_some_iff] at elapsed
  obtain ⟨difference, counted, cast⟩ := elapsed
  rw [(count_eq_some_iff.mp counted).2]
  exact cast

theorem common_eq_some_iff {passed limit : Int} :
    timer.common ticks now = some (passed, limit) ↔
      (Fits (now - timer.startTime) ∧ Fits ((now - timer.startTime) * ticks.num) ∧
        Fits (timer.timeout * ticks.den)) ∧
        (now - timer.startTime) * ticks.num = passed ∧ timer.timeout * ticks.den = limit := by
  simp only [Timer.common, Option.bind_eq_bind, Option.pure_def, Option.bind_eq_some_iff,
    count_eq_some_iff, Option.some.injEq, Prod.mk.injEq]
  constructor
  · rintro ⟨_, ⟨first, rfl⟩, _, ⟨second, rfl⟩, _, ⟨third, rfl⟩, same, same'⟩
    exact ⟨⟨first, second, third⟩, same, same'⟩
  · rintro ⟨⟨first, second, third⟩, same, same'⟩
    exact ⟨_, ⟨first, rfl⟩, _, ⟨second, rfl⟩, _, ⟨third, rfl⟩, same, same'⟩

/-- A timer has timed out where the timeout is shorter than the time since the start. -/
theorem hasTimedOut_eq_some {out : Bool} (timedOut : timer.hasTimedOut ticks now = some out) :
    out = true ↔ timer.timeout * ticks.den < (now - timer.startTime) * ticks.num := by
  rw [Timer.hasTimedOut, Option.bind_eq_bind, Option.bind_eq_some_iff] at timedOut
  obtain ⟨⟨passed, limit⟩, common, shown⟩ := timedOut
  obtain ⟨-, rfl, rfl⟩ := common_eq_some_iff.mp common
  rw [← Option.some.inj shown]
  exact decide_eq_true_iff

/-- The remaining time is cut to whole units, and it is not negative. -/
theorem remaining_eq_some {unit : Ratio} {left : Int}
    (remaining : timer.remaining ticks unit now = some left) :
    ∃ units, durationCast unit (timer.timeout * ticks.den - (now - timer.startTime) * ticks.num) =
      some units ∧ max units 0 = left := by
  rw [Timer.remaining, Option.bind_eq_bind, Option.bind_eq_some_iff] at remaining
  obtain ⟨⟨passed, limit⟩, common, shown⟩ := remaining
  obtain ⟨-, rfl, rfl⟩ := common_eq_some_iff.mp common
  simp only [Option.bind_eq_bind, Option.bind_eq_some_iff] at shown
  obtain ⟨difference, counted, units, cast, same⟩ := shown
  rw [(count_eq_some_iff.mp counted).2]
  exact ⟨units, cast, Option.some.inj same⟩

/-- Where the clock shows no negative times, a timer with a timeout has all of its times in range for as
long as the common unit has counts for the timeout and for what the clock shows. -/
theorem timer_defined (first : 0 ≤ timer.startTime) (later : timer.startTime ≤ now)
    (set : 0 ≤ timer.timeout) (limit : Fits (timer.timeout * ticks.den)) (clock : Fits (now * ticks.num)) :
    (timer.elapsed .one now).isSome = true ∧ (timer.hasTimedOut ticks now).isSome = true ∧
      (timer.remaining ticks .one now).isSome = true := by
  rw [fits_iff] at clock
  have passed : 0 ≤ (now - timer.startTime) * ticks.num :=
    Int.mul_nonneg (by omega) (Int.le_of_lt ticks.num_pos)
  have most : (now - timer.startTime) * ticks.num ≤ now * ticks.num :=
    Int.mul_le_mul_of_nonneg_right (by omega) (Int.le_of_lt ticks.num_pos)
  have least : (now - timer.startTime) * 1 ≤ (now - timer.startTime) * ticks.num :=
    Int.mul_le_mul_of_nonneg_left ticks.num_pos (by omega)
  have waits : 0 ≤ timer.timeout * ticks.den := Int.mul_nonneg set (Int.le_of_lt ticks.den_pos)
  have elapsed : Fits (now - timer.startTime) := fits_iff.mpr (by omega)
  have scaled : Fits ((now - timer.startTime) * ticks.num) := fits_iff.mpr (by omega)
  have common : timer.common ticks now =
      some ((now - timer.startTime) * ticks.num, timer.timeout * ticks.den) :=
    common_eq_some_iff.mpr ⟨⟨elapsed, scaled, limit⟩, rfl, rfl⟩
  have difference : Fits (timer.timeout * ticks.den - (now - timer.startTime) * ticks.num) := by
    rw [fits_iff] at limit ⊢
    omega
  have counted := count_eq_some_iff.mpr ⟨difference, rfl⟩
  have cast := durationCast_one.mpr ⟨difference, rfl⟩
  refine ⟨?_, ?_, ?_⟩
  · rw [Timer.elapsed, count_eq_some_iff.mpr ⟨elapsed, rfl⟩]
    simp only [Option.bind_eq_bind, Option.bind_some, durationCast_one.mpr ⟨elapsed, rfl⟩]
    rfl
  · rw [Timer.hasTimedOut, common]
    rfl
  · rw [Timer.remaining, common]
    simp only [Option.bind_eq_bind, Option.bind_some, counted, cast]
    rfl

theorem accounted_append (first second : List TimerEvent) :
    accounted ticks (first ++ second) = accounted ticks first + accounted ticks second := by
  induction first with
  | nil => exact (Int.zero_add _).symm
  | cons event rest ih =>
      cases event with
      | waited passed => exact ih
      | reset elapsed between =>
          rw [List.cons_append, accounted, accounted, ih, ← Int.add_assoc]

theorem resets_append (first second : List TimerEvent) :
    resets (first ++ second) = resets first + resets second := by
  induction first with
  | nil => exact (Nat.zero_add _).symm
  | cons event rest ih =>
      cases event with
      | waited passed => exact ih
      | reset elapsed between =>
          rw [List.cons_append, resets, resets, ih, Nat.add_right_comm]

/-- The resets account for the time up to the last one, but for what their casts cut off. -/
structure Accounts (ticks : Ratio) (timeout start : Int) (history : List TimerEvent) (state : Ticking) :
    Prop where
  timeout : state.timer.timeout = timeout
  began : start ≤ state.timer.startTime
  passed : state.timer.startTime ≤ state.clock
  least : accounted ticks history ≤ (state.timer.startTime - start) * ticks.num
  most : (state.timer.startTime - start) * ticks.num ≤
    accounted ticks history + resets history * (ticks.den - 1)

theorem Accounts.reset {later elapsed : Int} {between : Nat}
    (accounts : Accounts ticks timeout start history state) (goes : later = state.clock + between)
    (reset : state.timer.elapsed ticks state.clock = some elapsed) :
    Accounts ticks timeout start (history ++ [.reset elapsed between])
      ⟨{ state.timer with startTime := later }, later⟩ := by
  obtain ⟨same, began, passed, least, most⟩ := accounts
  obtain ⟨-, low, high⟩ := durationCast_bounds (by omega) (elapsed_eq_some reset)
  have whole : (later - start) * ticks.num = (state.timer.startTime - start) * ticks.num +
      (state.clock - state.timer.startTime) * ticks.num + between * ticks.num := by
    rw [goes, ← Int.add_mul, ← Int.add_mul]
    congr 1
    omega
  have more : accounted ticks (history ++ [.reset elapsed between]) =
      accounted ticks history + (elapsed * ticks.den + between * ticks.num) := by
    rw [accounted_append, accounted, accounted, Int.add_zero]
  have again : (resets (history ++ [.reset elapsed between]) : Int) * (ticks.den - 1) =
      resets history * (ticks.den - 1) + (ticks.den - 1) := by
    rw [resets_append, resets, resets, Nat.zero_add, Int.natCast_succ, Int.add_mul, Int.one_mul]
  rw [Int.add_mul, Int.one_mul] at high
  refine ⟨same, ?_, Int.le_refl _, ?_, ?_⟩
  · show start ≤ later
    omega
  · show _ ≤ (later - start) * ticks.num
    rw [whole, more]
    omega
  · show (later - start) * ticks.num ≤ _
    rw [whole, more, again]
    omega

theorem run_accounts (run : (ticking ticks).Run ⟨.constructTimeout timeout start, start⟩ history state) :
    Accounts ticks timeout start history state := by
  apply run.invariant fun history (state : Ticking) => Accounts ticks timeout start history state
  · refine ⟨rfl, Int.le_refl _, Int.le_refl _, ?_, ?_⟩ <;>
      simp [Timer.constructTimeout, accounted, resets]
  · intro history before action event after accounts stepped
    cases action with
    | wait passed =>
        simp only [ticking, Option.bind_eq_bind, Option.bind_eq_some_iff, count_eq_some_iff] at stepped
        obtain ⟨_, ⟨-, rfl⟩, ended⟩ := stepped
        cases ended
        obtain ⟨same, began, later, least, most⟩ := accounts
        have unchanged : accounted ticks (history ++ [.waited passed]) = accounted ticks history := by
          rw [accounted_append, accounted, accounted, Int.add_zero]
        have unchanged' : resets (history ++ [.waited passed]) = resets history := by
          rw [resets_append, resets, resets, Nat.add_zero]
        refine ⟨same, began, ?_, unchanged ▸ least, ?_⟩
        · show before.timer.startTime ≤ before.clock + passed
          omega
        · rw [unchanged, unchanged']
          exact most
    | reset between =>
        simp only [ticking, Timer.reset, Option.bind_eq_bind, Option.bind_eq_some_iff, count_eq_some_iff,
          Option.map_eq_some_iff] at stepped
        obtain ⟨later, ⟨-, goes⟩, _, ⟨elapsed, reset, rfl⟩, ended⟩ := stepped
        cases ended
        exact accounts.reset goes.symm reset

/-- The remaining time is the last one of its unit at which the timer has not timed out. -/
theorem remaining_bounds {unit : Ratio} {left : Int} {out : Bool}
    (remaining : timer.remaining ticks unit now = some left)
    (timedOut : timer.hasTimedOut ticks now = some out) :
    0 ≤ left ∧ (out = true → left = 0) ∧
      ∀ (wait : Nat) (later : Bool), timer.hasTimedOut ticks (now + wait) = some later →
        (out = false → wait * ticks.num * unit.num ≤ left * unit.den → later = false) ∧
        ((left + 1) * unit.den ≤ wait * ticks.num * unit.num → later = true) := by
  obtain ⟨units, cast, rfl⟩ := remaining_eq_some remaining
  have outNow := hasTimedOut_eq_some timedOut
  obtain ⟨gap, same⟩ : ∃ gap, timer.timeout * ticks.den - (now - timer.startTime) * ticks.num = gap :=
    ⟨_, rfl⟩
  rw [same] at cast
  have outThen : ∀ (wait : Nat) (later : Bool), timer.hasTimedOut ticks (now + wait) = some later →
      (later = true ↔ gap < wait * ticks.num) := by
    intro wait later shown
    have split : (now + wait - timer.startTime) * ticks.num =
        (now - timer.startTime) * ticks.num + wait * ticks.num := by
      rw [← Int.add_mul]
      congr 1
      omega
    rw [hasTimedOut_eq_some shown, split]
    omega
  rcases lt_or_ge gap 0 with past | future
  · have none : max units 0 = 0 := max_eq_right (durationCast_nonpos past cast)
    have done : out = true := outNow.mpr (by omega)
    rw [none]
    refine ⟨Int.le_refl _, fun _ => rfl, fun wait later shown => ⟨fun still => ?_, fun _ => ?_⟩⟩
    · rw [done] at still
      contradiction
    · have waited : 0 ≤ wait * ticks.num := Int.mul_nonneg (by omega) (Int.le_of_lt ticks.num_pos)
      exact (outThen wait later shown).mpr (by omega)
  · obtain ⟨nonneg, least, most⟩ := durationCast_bounds future cast
    have some : max units 0 = units := max_eq_left nonneg
    rw [some]
    refine ⟨nonneg, fun done => ?_, fun wait later shown => ⟨fun _ short => ?_, fun long => ?_⟩⟩
    · have negative := outNow.mp done
      omega
    · rw [← Bool.not_eq_true, outThen wait later shown, Int.not_lt]
      exact Int.le_of_mul_le_mul_right (Int.le_trans short least) unit.num_pos
    · rw [outThen wait later shown]
      exact Int.lt_of_mul_lt_mul_right (Int.lt_of_lt_of_le most long) (Int.le_of_lt unit.num_pos)

/-- In every run the values that the resets returned, the elapsed time and the time between the two readings
of each reset add up to the whole time, but for less than one tick of the default clock for each reset: with
equal ticks nothing is lost. Wherever the times are in range, a timer has timed out only where no time
remains, it has not yet for any part of the time that remains, and it has once one more unit has passed.
Without a timeout it has timed out from the beginning. -/
theorem timer_accounts (run : (ticking ticks).Run ⟨.constructTimeout timeout start, start⟩ history state)
    (unit : Ratio) :
    (∀ passed, state.timer.elapsed .one state.clock = some passed →
      0 ≤ passed ∧
      accounted ticks history + passed * ticks.num ≤ (state.clock - start) * ticks.num ∧
      (state.clock - start) * ticks.num ≤
        accounted ticks history + passed * ticks.num + resets history * (ticks.den - 1)) ∧
    (∀ left out, state.timer.remaining ticks unit state.clock = some left →
      state.timer.hasTimedOut ticks state.clock = some out →
        (timeout < 0 → out = true) ∧ 0 ≤ left ∧ (out = true → left = 0) ∧
        ∀ (wait : Nat) (later : Bool),
          state.timer.hasTimedOut ticks (state.clock + wait) = some later →
            (out = false → wait * ticks.num * unit.num ≤ left * unit.den → later = false) ∧
            ((left + 1) * unit.den ≤ wait * ticks.num * unit.num → later = true)) ∧
    (0 ≤ start → 0 ≤ timeout → Fits (timeout * ticks.den) →
      ∀ now, state.timer.startTime ≤ now → Fits (now * ticks.num) →
        (state.timer.elapsed .one now).isSome = true ∧
        (state.timer.hasTimedOut ticks now).isSome = true ∧
        (state.timer.remaining ticks .one now).isSome = true) := by
  obtain ⟨same, began, passed, least, most⟩ := run_accounts run
  refine ⟨?_, ?_, ?_⟩
  · intro last elapsed
    obtain ⟨-, rfl⟩ := durationCast_one.mp (elapsed_eq_some elapsed)
    have whole : (state.clock - start) * ticks.num = (state.timer.startTime - start) * ticks.num +
        (state.clock - state.timer.startTime) * ticks.num := by
      rw [← Int.add_mul]
      congr 1
      omega
    rw [whole]
    exact ⟨by omega, by omega, by omega⟩
  · intro left out remaining timedOut
    refine ⟨fun negative => ?_, remaining_bounds remaining timedOut⟩
    have nonneg : 0 ≤ (state.clock - state.timer.startTime) * ticks.num :=
      Int.mul_nonneg (by omega) (Int.le_of_lt ticks.num_pos)
    have none : state.timer.timeout * ticks.den < 0 := by
      rw [same]
      exact Int.mul_neg_of_neg_of_pos negative ticks.den_pos
    exact (hasTimedOut_eq_some timedOut).mpr (by omega)
  · intro first set limit now later clock
    rw [← same] at set limit
    exact timer_defined (by omega) later set limit clock

/-- A tick of the default clock is a thousand of the steady clock. -/
def coarse : Ratio := .part 1000 (Nat.succ_pos 999)

/-- The reset cuts the elapsed time to whole ticks of the default clock. A unit of two ticks is shown. -/
theorem timer_accounts_reset :
    ∃ history state, (ticking coarse).Run ⟨.constructTimeout 7 100, 100⟩ history state ∧
      accounted coarse history = 5003 ∧ state.clock = 5705 ∧
      (5705 - 100) * coarse.num ≤ 5003 + 2 * coarse.num + 1 * (coarse.den - 1) ∧
      state.timer.hasTimedOut coarse (5705 + (4 : Nat)) = some false := by
  have run : (ticking coarse).Run ⟨.constructTimeout 7 100, 100⟩ _ _ :=
    StepSystem.run_of_execute [.wait 5600, .reset 3, .wait 2] rfl
  obtain ⟨whole, remains, -⟩ := timer_accounts run (.part 2 Nat.two_pos)
  have later := ((remains 3499 false rfl rfl).2.2.2 4 _ rfl).1 rfl (by decide)
  exact ⟨_, _, run, rfl, rfl, (whole 2 rfl).2.2, congrArg some later⟩

end Timers

section Loops

variable {resolution interval start : Int} {history events : List Invocation} {before after state final : Loop}
  {scheduler next : PeriodicScheduler} {turn : Turn} {turns : List Turn} {invocation : Invocation}

/-- A sleep goes on to the next wake time, whether it sleeps or not. -/
theorem sleep_eq_some {now : Int} {slept : Option Int}
    (sleeps : scheduler.sleep resolution now = some (slept, next)) :
    next = { scheduler with
      lastInvocation := scheduler.lastInvocation + resolution * scheduler.interval
      cnt := scheduler.cnt + 1 } ∧
    slept = if now < next.lastInvocation then some (next.lastInvocation - now) else none := by
  simp only [PeriodicScheduler.sleep, PeriodicScheduler.getNextWakeTime, Option.bind_eq_bind,
    Option.pure_def, Option.bind_eq_some_iff, count_eq_some_iff, Option.some.injEq, Prod.mk.injEq] at sleeps
  obtain ⟨wakeTime, ⟨_, ⟨-, rfl⟩, -, rfl⟩, _, ⟨-, rfl⟩, _, ⟨-, rfl⟩, slept, rfl⟩ := sleeps
  refine ⟨rfl, slept.symm.trans ?_⟩
  simp only [gt_iff_lt, Int.sub_pos]

/-- How far the invocation that runs is behind its time. -/
def Loop.lateness (resolution start : Int) (state : Loop) : Int :=
  state.clock - (start + state.scheduler.cnt * (resolution * state.scheduler.interval))

/-- The wake times are the multiples of the period. -/
structure Paced (resolution interval start : Int) (begun : Nat) (state : Loop) : Prop where
  same : state.scheduler.interval = interval
  cnt : state.scheduler.cnt = begun
  last : state.scheduler.lastInvocation = start + begun * (resolution * interval)

/-- Each turn sleeps up to the next wake time, unless the clock shows that it has passed. -/
theorem loop_step {begun : Nat} {due : Int} (paced : Paced resolution interval start begun before)
    (multiple : start + (begun + 1) * (resolution * interval) = due)
    (stepped : (loop resolution).step before turn = some (invocation, after)) :
    Paced resolution interval start (begun + 1) after ∧ invocation.turn = turn ∧
      invocation.began = after.clock ∧ invocation.ended = before.clock + turn.body + turn.set ∧
      ((invocation.ended < due ∧ invocation.slept = some (due - invocation.ended) ∧
          after.clock = due + turn.late + turn.setAsleep) ∨
        (due ≤ invocation.ended ∧ invocation.slept = none ∧ after.clock = invocation.ended)) := by
  obtain ⟨same, cnt, last⟩ := paced
  simp only [loop, Option.bind_eq_bind, Option.pure_def, Option.bind_eq_some_iff, Option.some.injEq,
    Prod.mk.injEq] at stepped
  obtain ⟨⟨slept, scheduler⟩, sleeps, rfl, rfl⟩ := stepped
  obtain ⟨next, chosen⟩ := sleep_eq_some sleeps
  have wakes : scheduler.lastInvocation = due := by
    rw [next, ← multiple, same, last, Int.add_mul, Int.one_mul, Int.add_assoc]
  have paced : ∀ clock, Paced resolution interval start (begun + 1) ⟨scheduler, clock⟩ := by
    intro clock
    refine ⟨?_, ?_, ?_⟩
    · rw [next]
      exact same
    · rw [next, Int.natCast_succ]
      exact congrArg (· + 1) cnt
    · rw [Int.natCast_succ, multiple]
      exact wakes
  refine ⟨paced _, rfl, rfl, rfl, ?_⟩
  rw [wakes] at chosen
  by_cases early : before.clock + turn.body + turn.set < due
  · rw [if_pos early] at chosen
    subst chosen
    refine .inl ⟨early, rfl, ?_⟩
    show before.clock + turn.body + turn.set + (due - (before.clock + turn.body + turn.set)) + turn.late +
      turn.setAsleep = _
    omega
  · rw [if_neg early] at chosen
    subst chosen
    exact .inr ⟨Int.not_lt.mp early, rfl, rfl⟩

/-- A run begins as many invocations as it has events, besides the first one. -/
theorem run_paced (run : (loop resolution).Run (.begin interval start) history state) :
    Paced resolution interval start history.length state := by
  apply run.invariant fun history (state : Loop) =>
    Paced resolution interval start history.length state
  · exact ⟨rfl, rfl, by rw [List.length_nil]; simp [Loop.begin, PeriodicScheduler.construct]⟩
  · intro history before turn invocation after paced stepped
    rw [List.length_append]
    exact (loop_step paced rfl stepped).1

/-- The runtime is the time since the start, as the clock shows it. -/
theorem Paced.runtime {begun : Nat} (paced : Paced resolution interval start begun state) {unit : Ratio}
    {now time : Int} (runtime : state.scheduler.runtime resolution unit now = some time) :
    durationCast unit (now - start) = some time := by
  simp only [PeriodicScheduler.runtime, Option.bind_eq_bind, Option.bind_eq_some_iff,
    count_eq_some_iff] at runtime
  obtain ⟨_, ⟨-, rfl⟩, _, ⟨-, rfl⟩, _, ⟨-, rfl⟩, _, ⟨-, rfl⟩, cast⟩ := runtime
  have multiple : resolution * (interval * begun) = begun * (resolution * interval) := by
    rw [← Int.mul_assoc, Int.mul_comm]
  have same : now - start = now - state.scheduler.lastInvocation +
      resolution * (state.scheduler.interval * state.scheduler.cnt) := by
    rw [paced.same, paced.cnt, paced.last, multiple]
    omega
  rw [same]
  exact cast

/-- The remaining time is the time up to the next multiple, as the clock shows it. -/
theorem Paced.remaining {begun : Nat} (paced : Paced resolution interval start begun state) {unit : Ratio}
    {now time : Int} (remaining : state.scheduler.remainingIntervalTime resolution unit now = some time) :
    durationCast unit (start + (begun + 1) * (resolution * interval) - now) = some time := by
  simp only [PeriodicScheduler.remainingIntervalTime, PeriodicScheduler.getNextWakeTime, Option.bind_eq_bind,
    Option.bind_eq_some_iff, count_eq_some_iff] at remaining
  obtain ⟨_, ⟨_, ⟨-, rfl⟩, -, rfl⟩, _, ⟨-, rfl⟩, cast⟩ := remaining
  have wakes : start + (begun + 1) * (resolution * interval) =
      state.scheduler.lastInvocation + resolution * state.scheduler.interval := by
    rw [paced.same, paced.last, Int.add_mul, Int.one_mul, Int.add_assoc]
  rw [wakes]
  exact cast

/-- A turn that leaves some slack makes up for that much of the lateness. -/
theorem lateness_step {begun : Nat} {slack : Int} {bound : Nat}
    (paced : Paced resolution interval start begun before)
    (body : turn.body + turn.set + slack ≤ resolution * interval) (late : turn.late + turn.setAsleep ≤ bound)
    (stepped : (loop resolution).step before turn = some (invocation, after)) :
    after.lateness resolution start ≤ max (bound : Int) (before.lateness resolution start - slack) := by
  obtain ⟨⟨interval', cnt', -⟩, -, -, ended, slept⟩ := loop_step paced rfl stepped
  rw [Loop.lateness, Loop.lateness, interval', cnt', paced.same, paced.cnt, Int.natCast_succ, Int.add_mul,
    Int.one_mul]
  rw [Int.add_mul, Int.one_mul] at slept
  rcases slept with ⟨-, -, clock⟩ | ⟨-, -, clock⟩
  · omega
  · omega

/-- The lateness never adds up: over turns with some slack it shrinks by that much each, down to what a
single `sleep_for` is late. -/
theorem execute_lateness {begun : Nat} {slack : Int} {bound : Nat}
    (paced : Paced resolution interval start begun state)
    (short : ∀ turn ∈ turns,
      turn.body + turn.set + slack ≤ resolution * interval ∧ turn.late + turn.setAsleep ≤ bound)
    (slacken : 0 ≤ slack) (executed : (loop resolution).execute state turns = some (events, final)) :
    final.lateness resolution start ≤
      max (bound : Int) (state.lateness resolution start - turns.length * slack) := by
  induction turns generalizing state begun events with
  | nil =>
      obtain ⟨-, rfl⟩ := StepSystem.execute_nil.mp executed
      rw [List.length_nil]
      simp
  | cons turn rest ih =>
      obtain ⟨event, middle, later, stepped, continued, -⟩ := StepSystem.execute_cons_iff.mp executed
      obtain ⟨⟨body, late⟩, others⟩ := List.forall_mem_cons.mp short
      have first := lateness_step paced body late stepped
      have after := ih (loop_step paced rfl stepped).1 others continued
      have parts : (((turn :: rest).length : Nat) : Int) * slack = rest.length * slack + slack := by
        rw [List.length_cons, Int.natCast_succ, Int.add_mul, Int.one_mul]
      have nonneg : 0 ≤ rest.length * slack := Int.mul_nonneg (Int.natCast_nonneg _) slacken
      rw [parts]
      omega

/-- The first body takes three periods, and the next ones make up for it. -/
def overrunTurns : List Turn := [⟨30, 0, 0, 0⟩, ⟨4, 0, 0, 0⟩, ⟨4, 0, 0, 0⟩, ⟨4, 0, 0, 0⟩, ⟨4, 1, 0, 0⟩]

/-- The clock is set back while `sleep_for` sleeps, and the next invocation begins before its own multiple. -/
example : ((loop 1).execute (.begin 10 100) [⟨4, 0, 0, -8⟩]).map (fun answer =>
    answer.1.map Invocation.began) = some [102] := rfl

end Loops

end MartCommon.Common

import MartCommon.Library.RefCountReturns
import MartCommon.Library.RefCountSafety

namespace MartCommon.Library.RefCount

variable {Content Object Operation Slot Thread Value : Type}

/-- The values that objects stand for, under the names of the objects. -/
abbrev Store (Slot Value : Type) := Slot → Option Value

/-- What an operation leaves and creates, under the names of its sources and of the new objects. -/
def Outcome.entries (names targets : List Slot) (outcome : Outcome Object) :
    Pool Slot (Option Object) :=
  names.zip outcome.kept ++ targets.zip (outcome.created.map some)

/-- New values for some names. The other names keep what they have. -/
def Store.write [DecidableEq Slot] (store : Store Slot Value) (entries : Pool Slot (Option Value)) :
    Store Slot Value :=
  fun slot => (Pool.get slot entries).getD (store slot)

/-- Operations on values that happen at once, one after the other. The meaning of an operation relates
the values of its sources to those that it leaves and creates. -/
inductive Sequential [DecidableEq Slot] (sources : Operation → List Slot)
    (meaning : Operation → List Value → Outcome Value → Prop) :
    Store Slot Value → List (Operation × List Slot) → Store Slot Value → Prop where
  | nil {store : Store Slot Value} : Sequential sources meaning store [] store
  | cons {store final : Store Slot Value} {operation : Operation} {values : List Value}
      {result : Outcome Value} {targets : List Slot} {rest : List (Operation × List Slot)}
      (read : (sources operation).map store = values.map some)
      (means : meaning operation values result)
      (named : targets.length = result.created.length) (distinct : targets.Nodup)
      (fresh : ∀ target ∈ targets, store target = none)
      (later : Sequential sources meaning
        (store.write (result.entries (sources operation) targets)) rest final) :
      Sequential sources meaning store ((operation, targets) :: rest) final

/-- The operations in the order of their ends, with the names of their new objects. The operation of a
thread is the one that it began last. -/
def ended [DecidableEq Thread] :
    (Thread → Option Operation) → List (Action Operation Slot Thread) → List (Operation × List Slot)
  | _, [] => []
  | running, .begin thread operation :: rest =>
      ended (Function.update running thread (some operation)) rest
  | running, .tick _ :: rest => ended running rest
  | running, .finish thread targets :: rest =>
      match running thread with
      | none => ended running rest
      | some operation => (operation, targets) :: ended running rest

/-- The objects that an operation leaves and creates stand for values. -/
structure Shown (shows : Object → Value → Prop) (outcome : Outcome Object) (result : Outcome Value) :
    Prop where
  kept : List.Forall₂ (Option.Rel shows) outcome.kept result.kept
  created : List.Forall₂ shows outcome.created result.created

/-- An interface has a meaning on values when each operation on objects that stand for values ends, where
it ends at all, with objects that stand for what the meaning allows. -/
structure Means (interface : Interface Content Object Operation Slot)
    (meaning : Operation → List Value → Outcome Value → Prop)
    (shows : (Block → Option Content) → Object → Value → Prop) : Prop where
  monotone : ∀ {earlier later object value}, Extends earlier later → shows earlier object value →
    shows later object value
  ends : ∀ {operation objects values program contents},
    interface.body operation objects = some program →
    List.Forall₂ (shows contents) objects values →
    program.Ends contents fun outcome =>
      ∃ result, meaning operation values result ∧ Shown (shows contents) outcome result

/-- An operation in progress works on the values that the store still has for its sources. -/
def Job.Works (interface : Interface Content Object Operation Slot)
    (meaning : Operation → List Value → Outcome Value → Prop)
    (shows : (Block → Option Content) → Object → Value → Prop) (memory : Memory Content)
    (store : Store Slot Value) (operation : Operation) (job : Job Content Object Slot) : Prop :=
  job.names = interface.sources operation ∧
    ∃ values, (interface.sources operation).map store = values.map some ∧
      ∀ contents, Extends memory.content contents → job.program.Ends contents fun outcome =>
        ∃ result, meaning operation values result ∧ Shown (shows contents) outcome result

/-- A store depicts a state when it has a value for each name, which is the one that a live object stands
for, or that the operation in progress works on. -/
structure Depicts (interface : Interface Content Object Operation Slot)
    (meaning : Operation → List Value → Outcome Value → Prop)
    (shows : (Block → Option Content) → Object → Value → Prop)
    (running : Thread → Option Operation) (store : Store Slot Value)
    (state : State Content Object Slot Thread) : Prop where
  distinct : state.names.Nodup
  named : ∀ slot, store slot ≠ none ↔ slot ∈ state.names
  objects : ∀ slot object, (slot, object) ∈ state.objects →
    ∃ value, store slot = some value ∧ shows state.memory.content object value
  jobs : ∀ thread job, (thread, job) ∈ state.jobs → ∃ operation, running thread = some operation ∧
    job.Works interface meaning shows state.memory store operation

section Entries

variable {names targets : List Slot} {outcome : Outcome Object} {result : Outcome Value}
  {shows : Object → Value → Prop}

/-- Each name has its entry. -/
theorem keys_entries (kept : outcome.kept.length = names.length)
    (named : targets.length = outcome.created.length) :
    (outcome.entries names targets).map Prod.fst = names ++ targets := by
  rw [Outcome.entries, List.map_append, List.map_fst_zip (Nat.le_of_eq kept.symm),
    List.map_fst_zip]
  rw [List.length_map]
  exact Nat.le_of_eq named

/-- The objects come back under the names of the entries that have one. -/
theorem mem_restore_iff {slot : Slot} {object : Object} :
    (slot, object) ∈ restore names outcome.kept ++ targets.zip outcome.created ↔
      (slot, some object) ∈ outcome.entries names targets := by
  rw [Outcome.entries, List.mem_append, List.mem_append]
  apply or_congr
  · simp [restore, Prod.ext_iff]
  · rw [List.zip_map_right, List.mem_map]
    constructor
    · intro member
      exact ⟨(slot, object), member, rfl⟩
    · rintro ⟨⟨target, created⟩, member, same⟩
      cases same
      exact member

/-- The names of what comes back are some of the names. -/
theorem keys_restore (names : List Slot) (kept : List (Option Object)) :
    ((restore names kept).map Prod.fst).Sublist names := by
  induction names generalizing kept with
  | nil => exact .slnil
  | cons name names ih =>
      cases kept with
      | nil => exact List.nil_sublist _
      | cons entry rest =>
          cases entry with
          | none => exact (ih rest).cons name
          | some object => exact (ih rest).cons_cons name

/-- The names after an operation are those of its objects and those that it did not use. -/
theorem mem_names_iff {before : State Content Object Slot Thread}
    {rest : Pool Thread (Job Content Object Slot)} {slot : Slot} :
    slot ∈ State.names { before with
        objects := restore names outcome.kept ++ targets.zip outcome.created ++ before.objects
        jobs := rest } ↔
      (∃ object, (slot, some object) ∈ outcome.entries names targets) ∨
        slot ∈ before.objects.map Prod.fst ++ (Pool.values rest).flatMap Job.names := by
  rw [State.names, List.map_append, List.append_assoc, List.mem_append]
  apply or_congr_left
  simp only [← mem_restore_iff, List.mem_map, Prod.exists, exists_and_right, exists_eq_right]

/-- The entries stand for the entries of the values. -/
theorem Shown.entries (shown : Shown shows outcome result) (names targets : List Slot) :
    List.Forall₂ (fun entry entry' => entry.1 = entry'.1 ∧ Option.Rel shows entry.2 entry'.2)
      (outcome.entries names targets) (result.entries names targets) := by
  have paired {Left Right : Type} {related : Left → Right → Prop} {lefts : List Left}
      {rights : List Right} (alike : List.Forall₂ related lefts rights) (names : List Slot) :
      List.Forall₂ (fun entry entry' => entry.1 = entry'.1 ∧ related entry.2 entry'.2)
        (names.zip lefts) (names.zip rights) := by
    induction names generalizing lefts rights with
    | nil => exact .nil
    | cons name names ih =>
        cases alike with
        | nil => exact .nil
        | cons first others => exact .cons ⟨rfl, first⟩ (ih others)
  apply List.rel_append
  · exact paired shown.kept names
  · apply paired
    rw [List.forall₂_map_left_iff, List.forall₂_map_right_iff]
    exact shown.created.imp fun _ _ alike => .some alike

/-- An entry of a value belongs to one of an object. -/
theorem Shown.exists_object {slot : Slot} {value : Option Value} (shown : Shown shows outcome result)
    (member : (slot, value) ∈ result.entries names targets) :
    ∃ object, (slot, object) ∈ outcome.entries names targets ∧ Option.Rel shows object value :=
  Pool.exists_of_related (shown.entries names targets) member

/-- An entry of an object belongs to one of a value. -/
theorem Shown.exists_value {slot : Slot} {object : Option Object} (shown : Shown shows outcome result)
    (member : (slot, object) ∈ outcome.entries names targets) :
    ∃ value, (slot, value) ∈ result.entries names targets ∧ Option.Rel shows object value := by
  have mirrored : List.Forall₂
      (fun entry entry' => entry.1 = entry'.1 ∧ flip (Option.Rel shows) entry.2 entry'.2)
      (result.entries names targets) (outcome.entries names targets) :=
    ((shown.entries names targets).imp fun _ _ both => ⟨both.1.symm, both.2⟩).flip
  exact Pool.exists_of_related mirrored member

end Entries

section Write

variable [DecidableEq Slot] {store : Store Slot Value} {entries : Pool Slot (Option Value)} {slot : Slot}

theorem Store.write_of_mem {value : Option Value} (distinct : (entries.map Prod.fst).Nodup)
    (member : (slot, value) ∈ entries) : store.write entries slot = value := by
  rw [Store.write, Pool.get_of_mem distinct member]
  rfl

theorem Store.write_of_notMem (absent : slot ∉ entries.map Prod.fst) :
    store.write entries slot = store slot := by
  rw [Store.write, Pool.get_of_notMem absent]
  rfl

/-- Names that are not written keep their values. -/
theorem Store.map_write {names : List Slot} (apart : ∀ name ∈ names, name ∉ entries.map Prod.fst) :
    names.map (store.write entries) = names.map store :=
  List.map_congr_left fun name member => Store.write_of_notMem (apart name member)

end Write

section Steps

variable [DecidableEq Slot] [DecidableEq Thread] {modulus : Nat}
  {interface : Interface Content Object Operation Slot}
  {meaning : Operation → List Value → Outcome Value → Prop}
  {shows : (Block → Option Content) → Object → Value → Prop}
  {running : Thread → Option Operation} {store : Store Slot Value}
  {before after : State Content Object Slot Thread} {thread : Thread}

omit [DecidableEq Slot] [DecidableEq Thread] in
/-- The work goes on where the memory grows and where its sources are not written. -/
theorem Job.Works.mono {memory later : Memory Content} {store' : Store Slot Value}
    {operation : Operation} {job : Job Content Object Slot}
    (works : job.Works interface meaning shows memory store operation)
    (grown : Extends memory.content later.content)
    (same : job.names.map store' = job.names.map store) :
    job.Works interface meaning shows later store' operation := by
  obtain ⟨names, values, read, ends⟩ := works
  rw [names, read] at same
  exact ⟨names, values, same, fun contents kept => ends contents fun block content stored =>
    kept block content (grown block content stored)⟩

omit [DecidableEq Slot] [DecidableEq Thread] in
/-- The names of a state with one operation in progress taken out. -/
theorem names_take [DecidableEq Thread] {job : Job Content Object Slot}
    {rest : Pool Thread (Job Content Object Slot)}
    (taken : Pool.take thread before.jobs = some (job, rest)) :
    before.names.Perm (job.names ++ (before.objects.map Prod.fst ++
      (Pool.values rest).flatMap Job.names)) := by
  have others := (Pool.values_take taken).flatMap_right Job.names
  rw [List.flatMap_cons] at others
  rw [State.names]
  exact (others.append_left _).trans (List.perm_append_comm_assoc _ _ _)

omit [DecidableEq Slot] in
/-- Each source stands for the value that the store has under its name. -/
theorem exists_values {contents : Block → Option Content} {names : List Slot} {objects : List Object}
    (matched : objects.length = names.length)
    (depicted : ∀ entry ∈ names.zip objects, ∃ value, store entry.1 = some value ∧
      shows contents entry.2 value) :
    ∃ values, names.map store = values.map some ∧ List.Forall₂ (shows contents) objects values := by
  induction names generalizing objects with
  | nil =>
      rw [List.length_nil, List.length_eq_zero_iff] at matched
      subst matched
      exact ⟨[], rfl, .nil⟩
  | cons name names ih =>
      cases objects with
      | nil => contradiction
      | cons object objects =>
          obtain ⟨⟨value, found, shown⟩, others⟩ := List.forall_mem_cons.mp depicted
          obtain ⟨values, read, alike⟩ := ih (Nat.succ.inj matched) others
          refine ⟨value :: values, ?_, .cons shown alike⟩
          rw [List.map_cons, List.map_cons, found, read]

/-- An operation that begins takes its sources away, which keep their values in the store. -/
theorem Depicts.begin (depicts : Depicts interface meaning shows running store before)
    (means : Means interface meaning shows) {operation : Operation} {event : Unit}
    (stepped : (machine modulus interface).step before (.begin thread operation) =
      some (event, after)) :
    Depicts interface meaning shows (Function.update running thread (some operation)) store after := by
  simp only [machine, Option.ite_none_left_eq_some, Option.bind_eq_some_iff,
    Option.map_eq_some_iff, Prod.mk.injEq] at stepped
  obtain ⟨idle, ⟨objects, rest⟩, taken, program, body, -, rfl⟩ := stepped
  obtain ⟨perm, matched⟩ := Pool.takeAll_perm taken
  have names : before.names.Perm (State.names { before with
      objects := rest
      jobs := (thread, ⟨interface.sources operation, (objects.map interface.handles).sum,
        program⟩) :: before.jobs }) := by
    have keys := perm.map Prod.fst
    rw [List.map_append, List.map_fst_zip (Nat.le_of_eq matched.symm)] at keys
    have joined := (keys.trans List.perm_append_comm).append_right
      ((Pool.values before.jobs).flatMap Job.names)
    rwa [List.append_assoc] at joined
  refine ⟨names.nodup_iff.mp depicts.distinct, ?_, ?_, ?_⟩
  · intro slot
    rw [depicts.named, names.mem_iff]
  · intro slot object member
    exact depicts.objects slot object (perm.mem_iff.mpr (List.mem_append_right _ member))
  · intro other job member
    rcases List.mem_cons.mp member with here | member
    · cases here
      have depicted : ∀ entry ∈ (interface.sources operation).zip objects, ∃ value,
          store entry.1 = some value ∧ shows before.memory.content entry.2 value := by
        intro entry member
        exact depicts.objects entry.1 entry.2 (perm.mem_iff.mpr (List.mem_append_left _ member))
      obtain ⟨values, read, alike⟩ := exists_values matched depicted
      refine ⟨operation, Function.update_self _ _ _, rfl, values, read, fun contents kept => ?_⟩
      exact means.ends body (alike.imp fun _ _ shown => means.monotone kept shown)
    · have apart : other ≠ thread := by
        intro same
        exact idle (same ▸ List.mem_map_of_mem member)
      rw [Function.update_of_ne apart]
      exact depicts.jobs other job member

/-- An instruction changes nothing in the store. -/
theorem Depicts.tick (depicts : Depicts interface meaning shows running store before)
    (means : Means interface meaning shows) {event : Unit}
    (grows : ∀ {held left : Multiset Block} {program rest : Program Content (Outcome Object)}
      {memory : Memory Content}, advance before.memory modulus held program =
        some (memory, left, rest) → Extends before.memory.content memory.content)
    (stepped : (machine modulus interface).step before (.tick thread) = some (event, after)) :
    Depicts interface meaning shows running store after := by
  simp only [machine, Option.bind_eq_some_iff, Option.map_eq_some_iff,
    Prod.mk.injEq] at stepped
  obtain ⟨⟨job, rest⟩, taken, ⟨memory, held, program⟩, advanced, -, rfl⟩ := stepped
  have grown := grows advanced
  have names : before.names.Perm (State.names { before with
      memory := memory
      jobs := (thread, ⟨job.names, held, program⟩) :: rest }) :=
    (names_take taken).trans (List.perm_append_comm_assoc _ _ _)
  have entries := Pool.take_perm taken
  refine ⟨names.nodup_iff.mp depicts.distinct, ?_, ?_, ?_⟩
  · intro slot
    rw [depicts.named, names.mem_iff]
  · intro slot object member
    obtain ⟨value, found, shown⟩ := depicts.objects slot object member
    exact ⟨value, found, means.monotone grown shown⟩
  · intro other ticked member
    rcases List.mem_cons.mp member with here | member
    · cases here
      obtain ⟨operation, began, works⟩ :=
        depicts.jobs thread job (entries.mem_iff.mpr List.mem_cons_self)
      obtain ⟨names, values, read, ends⟩ := works.mono grown rfl
      exact ⟨operation, began, names, values, read, fun contents kept =>
        (ends contents kept).advance advanced kept⟩
    · obtain ⟨operation, began, works⟩ :=
        depicts.jobs other ticked (entries.mem_iff.mpr (List.mem_cons_of_mem _ member))
      exact ⟨operation, began, works.mono grown rfl⟩

/-- Where an operation has ended, entries of its objects and of their values belong together. -/
structure Closing (before : State Content Object Slot Thread) (names targets : List Slot)
    (shows : Object → Value → Prop) (outcome : Outcome Object) (result : Outcome Value) : Prop where
  shown : Shown shows outcome result
  kept : outcome.kept.length = names.length
  named : targets.length = outcome.created.length
  distinct : targets.Nodup
  fresh : ∀ target ∈ targets, target ∉ before.names

section Closing

variable {names targets : List Slot} {seen : Object → Value → Prop} {outcome : Outcome Object}
  {result : Outcome Value} (closing : Closing before names targets seen outcome result)

include closing

omit [DecidableEq Slot] [DecidableEq Thread]

theorem Closing.keys : (outcome.entries names targets).map Prod.fst = names ++ targets :=
  keys_entries closing.kept closing.named

theorem Closing.keys' : (result.entries names targets).map Prod.fst = names ++ targets := by
  apply keys_entries
  · rw [← closing.shown.kept.length_eq, closing.kept]
  · rw [← closing.shown.created.length_eq, closing.named]

/-- The names of an operation and of its new objects are different ones. -/
theorem Closing.nodup {others : List Slot} (perm : before.names.Perm (names ++ others))
    (nodup : before.names.Nodup) : (names ++ targets ++ others).Nodup := by
  have moved : (targets ++ before.names).Perm (names ++ targets ++ others) := by
    have joined := (perm.append_left targets).trans (List.perm_append_comm_assoc _ _ _)
    rwa [← List.append_assoc] at joined
  rw [← moved.nodup_iff, List.nodup_append']
  exact ⟨closing.distinct, nodup, closing.fresh⟩

/-- No name is used twice afterwards. -/
theorem Closing.names_nodup {rest : Pool Thread (Job Content Object Slot)}
    (nodup : (names ++ targets ++
      (before.objects.map Prod.fst ++ (Pool.values rest).flatMap Job.names)).Nodup) :
    (State.names { before with
      objects := restore names outcome.kept ++ targets.zip outcome.created ++ before.objects
      jobs := rest }).Nodup := by
  refine List.Nodup.sublist ?_ nodup
  rw [State.names, List.map_append, List.map_append, List.append_assoc,
    List.map_fst_zip (Nat.le_of_eq closing.named)]
  exact ((keys_restore names outcome.kept).append_right targets).append_right _

/-- A name has a value afterwards when it has an object. -/
theorem Closing.value_iff {slot : Slot} {value : Option Value}
    (distinct : ((outcome.entries names targets).map Prod.fst).Nodup)
    (member : (slot, value) ∈ result.entries names targets) :
    value ≠ none ↔ ∃ object, (slot, some object) ∈ outcome.entries names targets := by
  obtain ⟨object, found, related⟩ := closing.shown.exists_object member
  constructor
  · intro kept
    cases related with
    | none => contradiction
    | @some object _ _ => exact ⟨object, found⟩
  · rintro ⟨other, same⟩
    have twice := List.inj_on_of_nodup_map distinct found same rfl
    cases twice
    cases related
    exact Option.some_ne_none _

end Closing

/-- An operation that ends has its effect on the store all at once. -/
theorem Depicts.finish (depicts : Depicts interface meaning shows running store before)
    {targets : List Slot} {event : Unit}
    (delivered : ∀ {job : Job Content Object Slot} {rest : Pool Thread (Job Content Object Slot)}
      {outcome : Outcome Object}, Pool.take thread before.jobs = some (job, rest) →
        job.program = .done outcome → outcome.kept.length = job.names.length)
    (stepped : (machine modulus interface).step before (.finish thread targets) =
      some (event, after)) :
    ∃ operation values result, running thread = some operation ∧
      (interface.sources operation).map store = values.map some ∧ meaning operation values result ∧
      targets.length = result.created.length ∧ targets.Nodup ∧
      (∀ target ∈ targets, store target = none) ∧
      Depicts interface meaning shows running
        (store.write (result.entries (interface.sources operation) targets)) after := by
  simp only [machine, Option.bind_eq_some_iff] at stepped
  obtain ⟨⟨job, rest⟩, taken, stepped⟩ := stepped
  dsimp only at stepped
  split at stepped
  case h_2 => contradiction
  rename_i outcome program
  rw [Option.ite_none_right_eq_some, Option.some.injEq, Prod.mk.injEq] at stepped
  obtain ⟨⟨named, distinct, fresh⟩, -, rfl⟩ := stepped
  have jobs := Pool.take_perm taken
  obtain ⟨operation, began, sources, values, read, ends⟩ :=
    depicts.jobs thread job (jobs.mem_iff.mpr List.mem_cons_self)
  have ends := ends before.memory.content fun _ _ stored => stored
  rw [program] at ends
  obtain ⟨result, means, shown⟩ := ends
  have closing : Closing before job.names targets (shows before.memory.content) outcome result :=
    ⟨shown, delivered taken program, named, distinct, fresh⟩
  have perm := names_take taken
  have nodup := closing.nodup perm depicts.distinct
  have keys : ((result.entries job.names targets).map Prod.fst).Nodup := by
    rw [closing.keys']
    exact nodup.of_append_left
  have alike := shown.entries job.names targets
  have untouched : ∀ slot ∈ before.objects.map Prod.fst ++ (Pool.values rest).flatMap Job.names,
      slot ∉ (result.entries job.names targets).map Prod.fst := by
    intro slot member written
    rw [closing.keys'] at written
    exact List.disjoint_of_nodup_append nodup written member
  refine ⟨operation, values, result, began, read, means, ?_, distinct, ?_, ?_⟩
  · rw [← shown.created.length_eq, named]
  · intro target member
    by_contra used
    exact fresh target member ((depicts.named target).mp used)
  rw [← sources]
  refine ⟨closing.names_nodup nodup, ?_, ?_, ?_⟩
  · intro slot
    rw [mem_names_iff]
    by_cases written : slot ∈ (result.entries job.names targets).map Prod.fst
    · obtain ⟨⟨key, value⟩, member, same⟩ := List.mem_map.mp written
      obtain rfl : key = slot := same
      have unused : key ∉ before.objects.map Prod.fst ++ (Pool.values rest).flatMap Job.names :=
        fun member => untouched key member written
      rw [Store.write_of_mem keys member, closing.value_iff (closing.keys ▸ nodup.of_append_left) member,
        or_iff_left unused]
    · have unkept : ¬ ∃ object, (slot, some object) ∈ outcome.entries job.names targets := by
        rintro ⟨object, member⟩
        have key := List.mem_map_of_mem (f := Prod.fst) member
        rw [closing.keys, ← closing.keys'] at key
        exact written key
      rw [closing.keys', List.mem_append, not_or] at written
      rw [Store.write_of_notMem (closing.keys' ▸ List.mem_append.not.mpr (not_or.mpr written)),
        depicts.named, perm.mem_iff, List.mem_append, or_iff_right written.1, or_iff_right unkept]
  · intro slot object member
    rcases List.mem_append.mp member with member | member
    · obtain ⟨value, found, related⟩ := shown.exists_value (mem_restore_iff.mp member)
      cases related with
      | @some _ value shown =>
          exact ⟨value, Store.write_of_mem keys found, shown⟩
    · obtain ⟨value, found, shown⟩ := depicts.objects slot object member
      refine ⟨value, ?_, shown⟩
      rw [Store.write_of_notMem, found]
      exact untouched slot (List.mem_append_left _ (List.mem_map_of_mem member))
  · intro other another member
    obtain ⟨operation, began, works⟩ :=
      depicts.jobs other another (jobs.mem_iff.mpr (List.mem_cons_of_mem _ member))
    refine ⟨operation, began, works.mono (fun _ _ stored => stored) (Store.map_write ?_)⟩
    intro name used
    apply untouched
    exact List.mem_append_right _ (List.mem_flatMap.mpr
      ⟨another, List.mem_map_of_mem member, used⟩)

/-- Executed actions have the effect of the operations that ended, at once and in the order of their
ends. -/
theorem Depicts.execute {valid : (Block → Option Content) → Object → Prop}
    (depicts : Depicts interface meaning shows running store before)
    (means : Means interface meaning shows) (accounts : Accounts modulus interface valid before)
    (large : 1 < modulus) (lawful : Lawful interface valid)
    {actions : List (Action Operation Slot Thread)} {events : List Unit}
    (executed : (machine modulus interface).execute before actions = some (events, after)) :
    ∃ running' final, Sequential interface.sources meaning store (ended running actions) final ∧
      Depicts interface meaning shows running' final after := by
  induction actions generalizing before running store events with
  | nil =>
      obtain ⟨-, rfl⟩ := StepSystem.execute_nil.mp executed
      exact ⟨running, store, .nil, depicts⟩
  | cons action rest ih =>
      obtain ⟨event, middle, later, stepped, continued, -⟩ := StepSystem.execute_cons_iff.mp executed
      have next := accounts.step large lawful (machine_stepped stepped)
      cases action with
      | begin thread operation => exact ih (depicts.begin means stepped) next continued
      | tick thread => exact ih (depicts.tick means accounts.ledger.extends stepped) next continued
      | finish thread targets =>
          have delivered {job : Job Content Object Slot} {others outcome}
              (taken : Pool.take thread before.jobs = some (job, others))
              (program : job.program = .done outcome) : outcome.kept.length = job.names.length :=
            (accounts.ended taken program).kept
          obtain ⟨operation, values, result, began, read, meant, named, distinct, fresh, depicts⟩ :=
            depicts.finish delivered stepped
          obtain ⟨running', final, sequential, depicts⟩ := ih depicts next continued
          refine ⟨running', final, ?_, depicts⟩
          rw [ended, began]
          exact .cons read meant named distinct fresh sequential

omit [DecidableEq Slot] [DecidableEq Thread] in
/-- The empty store depicts the empty state. -/
theorem depicts_initial :
    Depicts interface meaning shows running (fun _ => none) ({} : State Content Object Slot Thread) where
  distinct := List.nodup_nil
  named slot := by simp [State.names, Pool.values]
  objects slot object member := by simp at member
  jobs thread job member := by simp at member

/-- Every interleaving of operations has the effect of the same operations on values, at once and one
after the other. Each live object stands for the value under its name. -/
theorem run_sequential {valid : (Block → Option Content) → Object → Prop}
    (means : Means interface meaning shows) (large : 1 < modulus) (lawful : Lawful interface valid)
    {actions : List (Action Operation Slot Thread)} {events : List Unit}
    (executed : (machine modulus interface).execute {} actions = some (events, after)) :
    ∃ store, Sequential interface.sources meaning (fun _ => none) (ended (fun _ => none) actions)
        store ∧
      ∀ slot object, (slot, object) ∈ after.objects →
        ∃ value, store slot = some value ∧ shows after.memory.content object value := by
  obtain ⟨running, store, sequential, depicts⟩ :=
    depicts_initial.execute means accounts_initial large lawful executed
  exact ⟨store, sequential, depicts.objects⟩

end Steps

end MartCommon.Library.RefCount

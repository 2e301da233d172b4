import MartCommon.Experimental.Link

namespace MartCommon.Experimental.Link

open Library

variable {L T : Type*}

namespace State

variable {state before after : State L T} {l other x : L} {t u : T} {value : Option T}

theorem target_congr (same : after.links l = before.links l) : after.target l = before.target l := by
  rw [target, same, target]

theorem live_of_target (pointing : state.target l = some t) : (state.links l).isSome := by
  rw [target, Option.join_eq_some_iff] at pointing
  rw [pointing]
  rfl

theorem target_of_no_link (absent : state.links l = none) : state.target l = none := by
  rw [target, absent]
  rfl

variable [DecidableEq L]

/-- How often the address of a link is among the back pointers of a target. -/
def backRefs (state : State L T) (t : T) (l : L) : Nat :=
  ((state.tables t).getD []).count (some l)

theorem backRefs_of_table {table : List (Option L)} (live : state.tables t = some table) :
    state.backRefs t l = table.count (some l) := by
  rw [backRefs, live, Option.getD_some]

theorem backRefs_of_dead (dead : state.tables t = none) : state.backRefs t l = 0 := by
  rw [backRefs, dead]
  rfl

theorem exists_table (known : 0 < state.backRefs t l) :
    ∃ table, state.tables t = some table ∧ some l ∈ table := by
  cases found : state.tables t with
  | none =>
      rw [backRefs_of_dead found] at known
      contradiction
  | some table =>
      rw [backRefs_of_table found, List.count_pos_iff] at known
      exact ⟨table, rfl, known⟩

/-- Back pointers depend on the tables only. -/
theorem backRefs_congr (same : after.tables t = before.tables t) :
    after.backRefs t l = before.backRefs t l := by
  rw [backRefs, same, backRefs]

theorem tables_setTarget : (state.setTarget l value).tables = state.tables := by
  unfold setTarget
  split <;> rfl

theorem backRefs_setTarget : (state.setTarget l value).backRefs t x = state.backRefs t x :=
  backRefs_congr (congrFun tables_setTarget t)

/-- A write to the target of a link that exists. -/
theorem setTarget_eq (live : (state.links l).isSome) :
    state.setTarget l value =
      { state with links := Function.update state.links l (some value) } := by
  obtain ⟨old, found⟩ := Option.isSome_iff_exists.mp live
  rw [setTarget, found]

/-- The link at an address changes its target only. -/
theorem target_update (link : Option (Option T)) :
    ({ state with links := Function.update state.links l link } : State L T).target =
      Function.update state.target l link.join := by
  funext x
  by_cases same : x = l
  · subst same
    simp [target]
  · simp [target, Function.update_of_ne same]

theorem target_setTarget (live : (state.links l).isSome) :
    (state.setTarget l value).target = Function.update state.target l value := by
  rw [setTarget_eq live, target_update, Option.join_some]

/-- A link that gets the target it has stays as it is. -/
theorem setTarget_same (live : (state.links l).isSome) (same : state.target l = value) :
    state.setTarget l value = state := by
  obtain ⟨pointer, found⟩ := Option.isSome_iff_exists.mp live
  have kept : some value = state.links l := by
    rw [← same, target, found, Option.join_some]
  rw [setTarget_eq live, kept, Function.update_eq_self]

theorem dangled_setTarget (live : (state.links l).isSome) :
    (state.setTarget l value).dangled = state.dangled := by
  rw [setTarget_eq live]

theorem live_setTarget (live : (state.links x).isSome) :
    ((state.setTarget l value).links x).isSome := by
  unfold setTarget
  split
  · exact live
  · by_cases same : x = l
    · subst same
      simp
    · simpa [Function.update_of_ne same] using live

/-- A new link is null. -/
theorem target_constructLink (absent : state.links l = none) :
    (state.constructLink l).target = state.target := by
  rw [constructLink, target_update, Option.join_some, ← target_of_no_link absent,
    Function.update_eq_self]

theorem live_constructLink : ((state.constructLink l).links l).isSome := by
  simp [constructLink]

theorem tables_takeTarget : (state.takeTarget l other).tables = state.tables := by
  rw [takeTarget, tables_setTarget]
  exact tables_setTarget

theorem dangled_takeTarget (live : (state.links other).isSome) :
    (state.takeTarget l other).dangled = state.dangled := by
  rw [takeTarget, dangled_setTarget live_constructLink]
  exact dangled_setTarget live

theorem target_takeTarget (live : (state.links other).isSome) :
    (state.takeTarget l other).target =
      Function.update (Function.update state.target other none) l (state.target other) := by
  rw [takeTarget, target_setTarget live_constructLink, constructLink, target_update,
    target_setTarget live, Function.update_idem]

/-- The loop writes to each link whose address is not null. -/
structure Retargeted (before after : State L T) (backPtrs : List (Option L)) (value : Option T) :
    Prop where
  target : ∀ x, after.target x = if some x ∈ backPtrs then value else before.target x
  tables : after.tables = before.tables
  dangled : after.dangled = before.dangled

theorem retargeted_retarget {backPtrs : List (Option L)}
    (live : ∀ l, some l ∈ backPtrs → (state.links l).isSome) :
    Retargeted state (state.retarget backPtrs value) backPtrs value := by
  induction backPtrs generalizing state with
  | nil => exact ⟨fun x => by rw [if_neg (List.not_mem_nil)]; rfl, rfl, rfl⟩
  | cons link rest ih =>
      cases link with
      | none =>
          have later := ih fun l member => live l (List.mem_cons_of_mem _ member)
          refine ⟨fun x => ?_, later.tables, later.dangled⟩
          have same : some x ∈ none :: rest ↔ some x ∈ rest := by simp
          rw [if_congr same rfl rfl]
          exact later.target x
      | some l =>
          have here := live l List.mem_cons_self
          have later : Retargeted (state.setTarget l value) _ rest value := ih fun x member =>
            live_setTarget (live x (List.mem_cons_of_mem _ member))
          refine ⟨fun x => ?_, later.tables.trans tables_setTarget,
            later.dangled.trans (dangled_setTarget here)⟩
          change ((state.setTarget l value).retarget rest value).target x = _
          rw [later.target x, target_setTarget here]
          by_cases same : x = l
          · subst same
            rw [Function.update_self, ite_self, if_pos List.mem_cons_self]
          · have behind : some x ∈ some l :: rest ↔ some x ∈ rest := by simp [same]
            rw [Function.update_of_ne same, if_congr behind rfl rfl]

variable [DecidableEq T]

/-- Each link that points to a target is there once among its back pointers, and no other address is. -/
structure Consistent (state : State L T) : Prop where
  counted : ∀ t l, state.backRefs t l = if state.target l = some t then 1 else 0
  intact : state.dangled = false

/-- An entry of the table of `t` was exchanged. -/
structure Exchanged (before after : State L T) (t : T) (old new : Option L) : Prop where
  links : after.links = before.links
  dangled : after.dangled = before.dangled
  living : ∀ u, (after.tables u).isSome = (before.tables u).isSome
  backRefs : ∀ u x, after.backRefs u x + (if u = t ∧ old = some x then 1 else 0) =
    before.backRefs u x + if u = t ∧ new = some x then 1 else 0

/-- The exchange finds an entry or leaves the state as it is. -/
theorem exchangeEntry_cases (old new : Option L) {table : List (Option L)}
    (live : state.tables t = some table) :
    (old ∈ table ∧ ∃ after, state.exchangeEntry t old new = (true, after) ∧
      Exchanged state after t old new) ∨
      old ∉ table ∧ state.exchangeEntry t old new = (false, state) := by
  rw [exchangeEntry, live]
  by_cases found : old ∈ table
  · refine .inl ⟨found, _, if_pos found, rfl, rfl, fun u => ?_, fun u x => ?_⟩
    · by_cases same : u = t
      · subst same
        simp [live]
      · simp [Function.update_of_ne same]
    by_cases same : u = t
    · subst same
      rw [backRefs_of_table (Function.update_self _ _ _), backRefs_of_table live, List.count_replace,
        if_pos (List.contains_iff_mem.mpr found)]
      simp only [beq_iff_eq, true_and]
      by_cases gone : old = some x
      · have positive := List.count_pos_iff.mpr (gone ▸ found)
        rw [if_pos gone]
        omega
      · rw [if_neg gone]
        omega
    · rw [backRefs_congr (Function.update_of_ne same _ _)]
      simp only [same, false_and]
  · exact .inr ⟨found, if_neg found⟩

/-- The links keep their targets. -/
theorem Exchanged.target {old new : Option L} (exchanged : Exchanged before after t old new) :
    after.target = before.target := by
  funext x
  exact target_congr (congrFun exchanged.links x)

theorem Exchanged.elsewhere {old new : Option L} (exchanged : Exchanged before after t old new) (u : T)
    (notOld : old ≠ some x) (notNew : new ≠ some x) : after.backRefs u x = before.backRefs u x := by
  simpa [notOld, notNew] using exchanged.backRefs u x

theorem Exchanged.added {old : Option L} (exchanged : Exchanged before after t old (some l))
    (different : old ≠ some l) (u : T) :
    after.backRefs u l = before.backRefs u l + if u = t then 1 else 0 := by
  simpa [different] using exchanged.backRefs u l

theorem Exchanged.removed {new : Option L} (exchanged : Exchanged before after t (some l) new)
    (different : new ≠ some l) (u : T) :
    (after.backRefs u l + if u = t then 1 else 0) = before.backRefs u l := by
  simpa [different] using exchanged.backRefs u l

/-- A link is taken out of the back pointers of its target. -/
structure Severed (before after : State L T) (l : L) : Prop where
  target : after.target = Function.update before.target l none
  dangled : after.dangled = before.dangled
  living : ∀ u, (after.tables u).isSome = (before.tables u).isSome
  live : (after.links l).isSome
  here : ∀ u, after.backRefs u l + (if before.target l = some u then 1 else 0) = before.backRefs u l
  elsewhere : ∀ u x, l ≠ x → after.backRefs u x = before.backRefs u x

theorem disconnect_null (pointing : state.target l = none) : state.disconnect l = (false, state) := by
  rw [disconnect, pointing]

theorem disconnect_pointing (pointing : state.target l = some t) :
    state.disconnect l = (true, (state.removeBackRef t l).2.setTarget l none) := by
  rw [disconnect, pointing]

/-- A link that its target knows can be disconnected. -/
theorem severed_disconnect (live : (state.links l).isSome)
    (known : ∀ t, state.target l = some t → 0 < state.backRefs t l) :
    Severed state (state.disconnect l).2 l := by
  cases pointing : state.target l with
  | none =>
      rw [disconnect_null pointing]
      refine ⟨?_, rfl, fun _ => rfl, live, fun u => ?_, fun _ _ _ => rfl⟩
      · rw [← pointing, Function.update_eq_self]
      · rw [pointing, if_neg nofun, Nat.add_zero]
  | some t =>
      obtain ⟨table, found, member⟩ := exists_table (known t pointing)
      rw [disconnect_pointing pointing]
      rcases exchangeEntry_cases (some l) none found with ⟨-, removed, ran, exchanged⟩ | ⟨absent, -⟩
      · rw [removeBackRef, ran]
        have live : (removed.links l).isSome := exchanged.links ▸ live
        refine ⟨?_, ?_, fun u => ?_, live_setTarget live, fun u => ?_, fun u x different => ?_⟩
        · rw [target_setTarget live, exchanged.target]
        · exact (dangled_setTarget live).trans exchanged.dangled
        · rw [tables_setTarget]
          exact exchanged.living u
        · rw [backRefs_setTarget, ← exchanged.removed nofun u, pointing,
            if_congr (Option.some_inj.trans eq_comm) rfl rfl]
        · rw [backRefs_setTarget]
          exact exchanged.elsewhere u (fun same => different (Option.some.inj same)) nofun
      · exact absurd member absent

/-- What an operation leaves: a consistent state, the targets of the links, and which targets live. -/
structure Becomes (after : State L T) (target : L → Option T) (living : T → Bool) : Prop where
  consistent : after.Consistent
  target : after.target = target
  living : ∀ u, (after.tables u).isSome = living u

/-- In a consistent state a link is known to its target. -/
theorem Consistent.known (consistent : state.Consistent) (pointing : state.target l = some t) :
    0 < state.backRefs t l := by
  rw [consistent.counted, if_pos pointing]
  exact Nat.one_pos

theorem Consistent.not_pointing (consistent : state.Consistent) (dead : state.tables t = none) :
    state.target l ≠ some t := by
  intro pointing
  have known := consistent.known pointing
  rw [backRefs_of_dead dead] at known
  contradiction

/-- An operation on one link keeps the state consistent when it leaves the entries of the other links
alone. -/
theorem Consistent.update (consistent : before.Consistent)
    (target : after.target = Function.update before.target l value)
    (intact : after.dangled = before.dangled)
    (here : ∀ u, after.backRefs u l = if value = some u then 1 else 0)
    (elsewhere : ∀ u x, l ≠ x → after.backRefs u x = before.backRefs u x) : after.Consistent := by
  refine ⟨fun u x => ?_, intact.trans consistent.intact⟩
  rw [target]
  by_cases same : l = x
  · subst same
    rw [Function.update_self, here]
  · rw [Function.update_of_ne (Ne.symm same), elsewhere u x same, consistent.counted]

theorem Consistent.disconnect (consistent : state.Consistent) (live : (state.links l).isSome) :
    (state.disconnect l).2.Becomes (Function.update state.target l none)
      fun u => (state.tables u).isSome := by
  have severed := severed_disconnect live fun t => consistent.known
  refine ⟨consistent.update severed.target severed.dangled (fun u => ?_) (fun u x different => ?_),
    severed.target, severed.living⟩
  · have counts := severed.here u
    rw [consistent.counted] at counts
    rw [if_neg nofun]
    omega
  · exact severed.elsewhere u x different

/-- The entry that `connect` adds is the only one that stays, also where the link pointed to the same
target before. -/
theorem Consistent.connect (consistent : state.Consistent) (linkLive : (state.links l).isSome)
    (targetLive : (state.tables t).isSome) :
    (state.connect l t).2.Becomes
      (if (state.connect l t).1 then Function.update state.target l (some t) else state.target)
      fun u => (state.tables u).isSome := by
  obtain ⟨table, found⟩ := Option.isSome_iff_exists.mp targetLive
  rcases exchangeEntry_cases none (some l) found with
    ⟨-, added, ran, exchanged⟩ | ⟨-, ran⟩
  · have same : added.target = state.target := exchanged.target
    have severed : Severed added (added.disconnect l).2 l := by
      refine severed_disconnect (exchanged.links ▸ linkLive) fun u pointing => ?_
      rw [same] at pointing
      have known := consistent.known pointing
      rw [exchanged.added nofun]
      omega
    have result : state.connect l t = (true, (added.disconnect l).2.setTarget l (some t)) := by
      rw [State.connect, addBackRef, ran]
    have target : ((added.disconnect l).2.setTarget l (some t)).target =
        Function.update state.target l (some t) := by
      rw [target_setTarget severed.live, severed.target, same, Function.update_idem]
    rw [result]
    refine ⟨consistent.update target ?_ (fun u => ?_) (fun u x different => ?_), target, fun u => ?_⟩
    · rw [dangled_setTarget severed.live, severed.dangled, exchanged.dangled]
    · have counts := severed.here u
      rw [exchanged.added nofun, consistent.counted, same] at counts
      rw [backRefs_setTarget, if_congr (Option.some_inj.trans eq_comm) rfl rfl]
      omega
    · rw [backRefs_setTarget, severed.elsewhere u x different]
      exact exchanged.elsewhere u nofun fun same => different (Option.some.inj same)
    · rw [tables_setTarget, severed.living, exchanged.living]
  · have result : state.connect l t = (false, state) := by
      rw [State.connect, addBackRef, ran]
    rw [result]
    exact ⟨consistent, rfl, fun _ => rfl⟩

theorem Consistent.constructLink (consistent : state.Consistent) (absent : state.links l = none) :
    (state.constructLink l).Becomes state.target fun u => (state.tables u).isSome := by
  refine ⟨⟨fun u x => ?_, consistent.intact⟩, target_constructLink absent, fun _ => rfl⟩
  rw [target_constructLink absent]
  exact consistent.counted u x

theorem Consistent.destroyLink (consistent : state.Consistent) (null : state.links l = some none) :
    (state.destroyLink l).Becomes state.target fun u => (state.tables u).isSome := by
  have pointing : state.target l = none := by
    rw [target, null]
    rfl
  have target : (state.destroyLink l).target = state.target := by
    rw [State.destroyLink, target_update, Option.join_none, ← pointing, Function.update_eq_self]
  refine ⟨⟨fun u x => ?_, consistent.intact⟩, target, fun _ => rfl⟩
  rw [target]
  exact consistent.counted u x

theorem Consistent.target_live (consistent : state.Consistent) (pointing : state.target l = some t) :
    ∃ table, state.tables t = some table ∧ some l ∈ table :=
  exists_table (consistent.known pointing)

/-- A copy points to the target of the other link, or is null where the target is full. -/
theorem Consistent.copyConstructLink (consistent : state.Consistent) (absent : state.links l = none) :
    (state.copyConstructLink l other).2.Becomes
      (if (state.copyConstructLink l other).1 then
        Function.update state.target l (state.target other) else state.target)
      fun u => (state.tables u).isSome := by
  have constructed := consistent.constructLink absent
  have live : ((state.constructLink l).links l).isSome := by
    simp [State.constructLink]
  cases pointing : state.target other with
  | none =>
      have result : state.copyConstructLink l other = (false, state.constructLink l) := by
        rw [State.copyConstructLink, pointing]
      rw [result]
      exact constructed
  | some t =>
      obtain ⟨table, found, -⟩ := consistent.target_live pointing
      have found : (state.constructLink l).tables t = some table := found
      rcases exchangeEntry_cases none (some l) found with
        ⟨-, added, ran, exchanged⟩ | ⟨-, ran⟩
      · have result : state.copyConstructLink l other = (true, added.setTarget l (some t)) := by
          simp only [State.copyConstructLink, pointing, addBackRef, ran]
        have live : (added.links l).isSome := exchanged.links ▸ live
        have same : added.target = state.target := exchanged.target.trans constructed.target
        have target : (added.setTarget l (some t)).target =
            Function.update state.target l (some t) := by
          rw [target_setTarget live, same]
        rw [result]
        refine ⟨consistent.update target ?_ (fun u => ?_) (fun u x different => ?_), target,
          fun u => ?_⟩
        · rw [dangled_setTarget live, exchanged.dangled]
          rfl
        · rw [backRefs_setTarget, exchanged.added nofun, constructed.consistent.counted,
            constructed.target, target_of_no_link absent, if_neg nofun, Nat.zero_add,
            if_congr (eq_comm.trans Option.some_inj.symm) rfl rfl]
        · rw [backRefs_setTarget]
          exact exchanged.elsewhere u nofun fun same => different (Option.some.inj same)
        · rw [tables_setTarget, exchanged.living]
          rfl
      · have result : state.copyConstructLink l other = (false, state.constructLink l) := by
          simp only [State.copyConstructLink, pointing, addBackRef, ran]
        rw [result]
        exact constructed

/-- A link that nobody knows takes the place of another link among the back pointers. -/
theorem Consistent.handOver {written : State L T} (consistent : state.Consistent) (different : l ≠ other)
    (pointing : state.target other = some t)
    (target : written.target = Function.update (Function.update state.target other none) l (some t))
    (intact : written.dangled = state.dangled) (here : ∀ u, written.backRefs u l = 0)
    (elsewhere : ∀ u x, l ≠ x → written.backRefs u x = state.backRefs u x) :
    (written.updateBackRef t other l).2.Becomes
      (Function.update (Function.update state.target other none) l (some t))
      fun u => (written.tables u).isSome := by
  have known : 0 < written.backRefs t other :=
    (elsewhere t other different).symm ▸ consistent.known pointing
  obtain ⟨table, found, member⟩ := exists_table known
  rcases exchangeEntry_cases (some other) (some l) found with
    ⟨-, after, ran, exchanged⟩ | ⟨missing, -⟩
  · rw [updateBackRef, ran]
    have moved := exchanged.target.trans target
    refine ⟨⟨fun u x => ?_, exchanged.dangled.trans (intact.trans consistent.intact)⟩, moved,
      exchanged.living⟩
    rw [moved]
    by_cases atNew : l = x
    · subst atNew
      rw [Function.update_self, exchanged.added fun same => different (Option.some.inj same).symm,
        here, Nat.zero_add, if_congr (eq_comm.trans Option.some_inj.symm) rfl rfl]
    · rw [Function.update_of_ne (Ne.symm atNew)]
      by_cases atOld : x = other
      · subst atOld
        have counts := exchanged.removed (fun same => atNew (Option.some.inj same)) u
        rw [elsewhere u x atNew, consistent.counted, pointing,
          if_congr (Option.some_inj.trans eq_comm) rfl rfl] at counts
        rw [Function.update_self, if_neg nofun]
        exact Nat.add_eq_right.mp counts
      · rw [Function.update_of_ne atOld, ← consistent.counted, ← elsewhere u x atNew]
        exact exchanged.elsewhere u (fun same => atOld (Option.some.inj same).symm)
          fun same => atNew (Option.some.inj same)
  · exact absurd member missing

/-- A move takes the place of the other link among the back pointers. -/
theorem Consistent.moveConstructLink (consistent : state.Consistent) (absent : state.links l = none)
    (live : (state.links other).isSome) :
    (state.moveConstructLink l other).2.Becomes
      (Function.update (Function.update state.target other none) l (state.target other))
      fun u => (state.tables u).isSome := by
  have different : l ≠ other := by
    rintro rfl
    rw [absent] at live
    contradiction
  have null := target_of_no_link absent
  have target := target_takeTarget (l := l) live
  have intact := dangled_takeTarget (l := l) live
  have same (u : T) : (state.takeTarget l other).tables u = state.tables u :=
    congrFun tables_takeTarget u
  cases pointing : state.target other with
  | none =>
      have result : state.moveConstructLink l other = (false, state.takeTarget l other) := by
        rw [State.moveConstructLink, pointing]
      have still : Function.update (Function.update state.target other none) l none = state.target := by
        rw [← pointing, Function.update_eq_self, pointing, ← null, Function.update_eq_self]
      rw [pointing, still] at target
      rw [result, still]
      refine ⟨⟨fun u x => ?_, intact.trans consistent.intact⟩, target, fun u => by rw [same]⟩
      rw [backRefs_congr (same u), target]
      exact consistent.counted u x
  | some t =>
      have result : state.moveConstructLink l other =
          (true, ((state.takeTarget l other).updateBackRef t other l).2) := by
        rw [State.moveConstructLink, pointing]
      rw [pointing] at target
      rw [result, ← funext fun u => congrArg Option.isSome (same u)]
      refine consistent.handOver different pointing target intact (fun u => ?_) fun u x _ => ?_
      · rw [backRefs_congr (same u), consistent.counted, null, if_neg nofun]
      · exact backRefs_congr (same u)

theorem Consistent.constructTarget (consistent : state.Consistent) (absent : state.tables t = none)
    (maxLink : Nat) :
    (state.constructTarget t maxLink).Becomes state.target
      (Function.update (fun u => (state.tables u).isSome) t true) := by
  refine ⟨⟨fun u x => ?_, consistent.intact⟩, rfl, fun u => ?_⟩
  · have counts := consistent.counted u x
    rw [State.constructTarget]
    by_cases same : u = t
    · subst same
      rw [backRefs_of_dead absent] at counts
      rw [backRefs_of_table (Function.update_self _ _ _), List.count_replicate]
      exact counts
    · have kept : (state.constructTarget t maxLink).tables u = state.tables u :=
        Function.update_of_ne same _ _
      exact (backRefs_congr kept).trans counts
  · by_cases same : u = t
    · subst same
      simp [State.constructTarget]
    · simp [State.constructTarget, Function.update_of_ne same]

/-- In a consistent state the table of a target has the links that point to it. -/
theorem Consistent.mem_table {table : List (Option L)} (consistent : state.Consistent)
    (found : state.tables t = some table) : some l ∈ table ↔ state.target l = some t := by
  have counts := consistent.counted t l
  rw [backRefs_of_table found] at counts
  rw [← List.count_pos_iff, counts]
  split
  · rename_i pointing
    exact iff_of_true Nat.one_pos pointing
  · rename_i elsewhere
    exact iff_of_false (Nat.lt_irrefl 0) elsewhere

/-- Pointers to the other targets stay. -/
theorem redirected_elsewhere (pointing value : Option T) {v : T} (elsewhere : v ≠ u)
    (different : value ≠ some v) :
    (if pointing = some u then value else pointing) = some v ↔ pointing = some v := by
  split
  · rename_i here
    rw [here]
    exact iff_of_false different fun same => elsewhere (Option.some.inj same).symm
  · rfl

/-- A target has the table of another target, and the links in it point there. -/
structure TakenOver (before after : State L T) (t u : T) (table : List (Option L)) : Prop where
  target : ∀ x, after.target x = if some x ∈ table then some t else before.target x
  tables : after.tables = Function.update (Function.update before.tables t (some table)) u
    (some (List.replicate table.length none))
  dangled : after.dangled = before.dangled

section TakenOver

variable {v : T} {table : List (Option L)}

theorem TakenOver.table_old (takenOver : TakenOver before after t u table) :
    after.tables u = some (List.replicate table.length none) := by
  rw [takenOver.tables, Function.update_self]

theorem TakenOver.table_new (takenOver : TakenOver before after t u table) (different : t ≠ u) :
    after.tables t = some table := by
  rw [takenOver.tables, Function.update_of_ne different, Function.update_self]

theorem TakenOver.table_other (takenOver : TakenOver before after t u table) (notOld : v ≠ u)
    (notNew : v ≠ t) : after.tables v = before.tables v := by
  rw [takenOver.tables, Function.update_of_ne notOld, Function.update_of_ne notNew]

end TakenOver

theorem takenOver_moveConstructTarget {table : List (Option L)} (t : T)
    (found : state.tables u = some table) (live : ∀ l, some l ∈ table → (state.links l).isSome) :
    TakenOver state (state.moveConstructTarget t u) t u table := by
  let copied : State L T := { state with tables := Function.update state.tables t (some table) }
  have result : state.moveConstructTarget t u =
      (copied.constructTarget u table.length).retarget table (some t) := by
    rw [State.moveConstructTarget, found]
  have retargeted : Retargeted (copied.constructTarget u table.length)
      ((copied.constructTarget u table.length).retarget table (some t)) table (some t) :=
    retargeted_retarget live
  rw [result]
  exact ⟨retargeted.target, retargeted.tables, retargeted.dangled⟩

/-- The links of a consistent state are live. -/
theorem Consistent.table_live {table : List (Option L)} (consistent : state.Consistent)
    (found : state.tables t = some table) (l : L) (member : some l ∈ table) : (state.links l).isSome :=
  live_of_target ((consistent.mem_table found).mp member)

/-- The tables fit the targets after a takeover by a target that no link points to before. -/
theorem Consistent.counted_takenOver {table : List (Option L)} (consistent : before.Consistent)
    (found : before.tables u = some table) (takenOver : TakenOver before after t u table)
    (different : t ≠ u) (unpointed : ∀ x, before.target x ≠ some t) (v : T) (x : L) :
    after.backRefs v x =
      if (if before.target x = some u then some t else before.target x) = some v then 1 else 0 := by
  by_cases atOld : v = u
  · subst atOld
    have left : (if before.target x = some v then some t else before.target x) ≠ some v := by
      split
      · exact fun same => different (Option.some.inj same)
      · assumption
    rw [backRefs_of_table takenOver.table_old, List.count_replicate, if_neg left]
    rfl
  · by_cases atNew : v = t
    · subst atNew
      have arrived : (if before.target x = some u then some v else before.target x) = some v ↔
          before.target x = some u := by
        split
        · exact iff_of_true rfl ‹_›
        · exact iff_of_false (unpointed x) ‹_›
      rw [backRefs_of_table (takenOver.table_new different), ← backRefs_of_table found,
        consistent.counted, if_congr arrived rfl rfl]
    · have same := redirected_elsewhere (before.target x) (some t) atOld
        fun same => atNew (Option.some.inj same).symm
      rw [backRefs_congr (takenOver.table_other atOld atNew), consistent.counted,
        if_congr same rfl rfl]

/-- A target takes over the links of another target when no link points to it before. -/
theorem Consistent.takeOver (consistent : state.Consistent) (different : t ≠ u)
    (unpointed : ∀ x, state.target x ≠ some t) (live : (state.tables u).isSome) :
    (state.moveConstructTarget t u).Becomes
      (fun x => if state.target x = some u then some t else state.target x)
      (Function.update (fun v => (state.tables v).isSome) t true) := by
  obtain ⟨table, found⟩ := Option.isSome_iff_exists.mp live
  have takenOver := takenOver_moveConstructTarget t found (consistent.table_live found)
  have target (x : L) : (state.moveConstructTarget t u).target x =
      if state.target x = some u then some t else state.target x := by
    rw [takenOver.target, if_congr (consistent.mem_table found) rfl rfl]
  refine ⟨⟨fun v x => ?_, ?_⟩, funext target, fun v => ?_⟩
  · rw [target]
    exact consistent.counted_takenOver found takenOver different unpointed v x
  · exact takenOver.dangled.trans consistent.intact
  · by_cases atOld : v = u
    · subst atOld
      rw [takenOver.table_old, Function.update_of_ne different.symm]
      exact live.symm
    · by_cases atNew : v = t
      · subst atNew
        rw [takenOver.table_new different, Function.update_self]
        rfl
      · rw [takenOver.table_other atOld atNew, Function.update_of_ne atNew]

/-- A target that moves takes its links along. -/
theorem Consistent.moveConstructTarget (consistent : state.Consistent) (absent : state.tables t = none)
    (live : (state.tables u).isSome) :
    (state.moveConstructTarget t u).Becomes
      (fun x => if state.target x = some u then some t else state.target x)
      (Function.update (fun v => (state.tables v).isSome) t true) := by
  refine consistent.takeOver ?_ (fun x => consistent.not_pointing absent) live
  rintro rfl
  rw [absent] at live
  contradiction

/-- A target is gone, and the links in its table are null. -/
structure Ended (before after : State L T) (t : T) (table : List (Option L)) : Prop where
  target : ∀ x, after.target x = if some x ∈ table then none else before.target x
  tables : after.tables = Function.update before.tables t none
  dangled : after.dangled = before.dangled

theorem Ended.table_gone {table : List (Option L)} (ended : Ended before after t table) :
    after.tables t = none := by
  rw [ended.tables, Function.update_self]

theorem Ended.table_other {v : T} {table : List (Option L)} (ended : Ended before after t table)
    (other : v ≠ t) : after.tables v = before.tables v := by
  rw [ended.tables, Function.update_of_ne other]

theorem ended_destroyTarget {table : List (Option L)} (found : state.tables t = some table)
    (live : ∀ l, some l ∈ table → (state.links l).isSome) :
    Ended state (state.destroyTarget t) t table := by
  have retargeted : Retargeted state (state.retarget table none) table none := retargeted_retarget live
  have result : state.destroyTarget t = { state.retarget table none with
      tables := Function.update (state.retarget table none).tables t none } := by
    rw [State.destroyTarget, found]
  rw [result]
  refine ⟨retargeted.target, ?_, retargeted.dangled⟩
  rw [retargeted.tables]

/-- The links to a target that ends become null. -/
theorem Consistent.destroyTarget (consistent : state.Consistent) (live : (state.tables t).isSome) :
    (state.destroyTarget t).Becomes
      (fun x => if state.target x = some t then none else state.target x)
      (Function.update (fun v => (state.tables v).isSome) t false) := by
  obtain ⟨table, found⟩ := Option.isSome_iff_exists.mp live
  have ended := ended_destroyTarget found (consistent.table_live found)
  have target (x : L) : (state.destroyTarget t).target x =
      if state.target x = some t then none else state.target x := by
    rw [ended.target, if_congr (consistent.mem_table found) rfl rfl]
  refine ⟨⟨fun v x => ?_, ?_⟩, funext target, fun v => ?_⟩
  · rw [target]
    by_cases here : v = t
    · subst here
      have left : (if state.target x = some v then none else state.target x) ≠ some v := by
        split
        · exact (Option.some_ne_none v).symm
        · assumption
      rw [backRefs_of_dead ended.table_gone, if_neg left]
    · have same := redirected_elsewhere (state.target x) none here (Option.some_ne_none v).symm
      rw [backRefs_congr (ended.table_other here), consistent.counted, if_congr same rfl rfl]
  · exact ended.dangled.trans consistent.intact
  · by_cases here : v = t
    · subst here
      rw [ended.table_gone, Function.update_self]
      rfl
    · rw [ended.table_other here, Function.update_of_ne here]

end State

end MartCommon.Experimental.Link

import MartCommon.Experimental.LinkTargetAssignment

namespace MartCommon.Experimental.Link

open Library

variable {L T : Type*} [DecidableEq L]

namespace State

/-- A target has each link at most once among its back pointers, and only links that point to it. -/
def Registered (state : State L T) [DecidableEq T] : Prop :=
  ∀ t l, state.backRefs t l ≤ if state.target l = some t then 1 else 0

variable [DecidableEq T] {state before after : State L T} {l other x : L} {t u : T} {value : Option T}

theorem Consistent.registered (consistent : state.Consistent) : state.Registered := by
  intro t l
  exact Nat.le_of_eq (consistent.counted t l)

/-- The entry of a link that does not point to the target is gone. -/
theorem Registered.unknown (registered : state.Registered) (elsewhere : state.target l ≠ some t) :
    state.backRefs t l = 0 := by
  have bound := registered t l
  rw [if_neg elsewhere] at bound
  omega

theorem Registered.at_most_once (registered : state.Registered) : state.backRefs t l ≤ 1 := by
  have bound := registered t l
  split at bound <;> omega

theorem Registered.pointing {table : List (Option L)} (registered : state.Registered)
    (found : state.tables t = some table) (member : some l ∈ table) : state.target l = some t := by
  by_contra elsewhere
  have unknown := registered.unknown elsewhere
  rw [backRefs_of_table found] at unknown
  exact List.count_eq_zero.mp unknown member

/-- The entries of a table are addresses of links that exist. -/
theorem Registered.table_live {table : List (Option L)} (registered : state.Registered)
    (found : state.tables t = some table) (l : L) (member : some l ∈ table) : (state.links l).isSome :=
  live_of_target (registered.pointing found member)

/-- No link points elsewhere, and no entry is new. -/
theorem Registered.of_le (registered : before.Registered) (target : after.target = before.target)
    (fewer : ∀ u x, after.backRefs u x ≤ before.backRefs u x) : after.Registered := by
  intro u x
  rw [target]
  exact Nat.le_trans (fewer u x) (registered u x)

/-- An operation on one link adds no entry for the other links. -/
theorem Registered.update (registered : before.Registered)
    (target : after.target = Function.update before.target l value)
    (here : ∀ u, after.backRefs u l ≤ if value = some u then 1 else 0)
    (elsewhere : ∀ u x, l ≠ x → after.backRefs u x ≤ before.backRefs u x) : after.Registered := by
  intro u x
  rw [target]
  by_cases same : l = x
  · subst same
    rw [Function.update_self]
    exact here u
  · rw [Function.update_of_ne (Ne.symm same)]
    exact Nat.le_trans (elsewhere u x same) (registered u x)

section Exchange

variable (state : State L T) (t : T) (old new : Option L)

theorem links_exchangeEntry : (state.exchangeEntry t old new).2.links = state.links := by
  unfold exchangeEntry
  split
  · rfl
  · split <;> rfl

theorem target_exchangeEntry : (state.exchangeEntry t old new).2.target = state.target := by
  funext x
  exact target_congr (congrFun (links_exchangeEntry state t old new) x)

/-- An exchange that finds nothing leaves the tables as they are. -/
theorem tables_exchangeEntry_of_not_found (missing : (state.exchangeEntry t old new).1 = false) :
    (state.exchangeEntry t old new).2.tables = state.tables := by
  unfold exchangeEntry at missing ⊢
  split
  · rfl
  · rename_i table found
    rw [found] at missing
    split
    · rename_i member
      simp [member] at missing
    · rfl

/-- An exchange takes one entry of the old link, if there is one, and adds at most one of the new link. -/
theorem backRefs_exchangeEntry (u : T) (x : L) :
    (state.exchangeEntry t old new).2.backRefs u x ≤
      (state.backRefs u x - if u = t ∧ old = some x then 1 else 0) +
        if u = t ∧ new = some x then 1 else 0 := by
  cases found : state.tables t with
  | none =>
      have same : (state.exchangeEntry t old new).2.tables = state.tables := by
        rw [exchangeEntry, found]
      rw [backRefs_congr (congrFun same u)]
      by_cases here : u = t
      · rw [here, backRefs_of_dead found]
        omega
      · simp [here]
  | some table =>
      rcases exchangeEntry_cases old new found with ⟨-, changed, ran, exchanged⟩ | ⟨absent, ran⟩
      · have counts := exchanged.backRefs u x
        rw [ran]
        change changed.backRefs u x ≤ _
        omega
      · rw [ran]
        by_cases gone : u = t ∧ old = some x
        · obtain ⟨rfl, rfl⟩ := gone
          rw [backRefs_of_table found, List.count_eq_zero.mpr absent]
          omega
        · rw [if_neg gone]
          change state.backRefs u x ≤ _
          omega

theorem backRefs_addBackRef (l : L) (u : T) (x : L) :
    (state.addBackRef t l).2.backRefs u x ≤
      state.backRefs u x + if u = t ∧ l = x then 1 else 0 := by
  have bound := backRefs_exchangeEntry state t none (some l) u x
  simp only [Option.some.injEq, reduceCtorEq, and_false, if_false, Nat.sub_zero] at bound
  exact bound

theorem backRefs_addBackRef_of_ne {l x : L} (different : l ≠ x) (u : T) :
    (state.addBackRef t l).2.backRefs u x ≤ state.backRefs u x := by
  have bound := backRefs_addBackRef state t l u x
  rwa [if_neg fun same => different same.2, Nat.add_zero] at bound

theorem links_addBackRef (l : L) : (state.addBackRef t l).2.links = state.links :=
  links_exchangeEntry _ _ _ _

theorem target_addBackRef (l : L) : (state.addBackRef t l).2.target = state.target :=
  target_exchangeEntry _ _ _ _

theorem backRefs_updateBackRef (oldAddr newAddr : L) (u : T) (x : L) :
    (state.updateBackRef t oldAddr newAddr).2.backRefs u x ≤
      (state.backRefs u x - if u = t ∧ oldAddr = x then 1 else 0) +
        if u = t ∧ newAddr = x then 1 else 0 := by
  have bound := backRefs_exchangeEntry state t (some oldAddr) (some newAddr) u x
  simp only [Option.some.injEq] at bound
  exact bound

end Exchange

/-- A target that has no free entry keeps its table. -/
theorem Registered.addBackRef_full {same : State L T} (registered : state.Registered)
    (ran : state.addBackRef t l = (false, same)) : same.Registered := by
  have result : same = (state.addBackRef t l).2 := by rw [ran]
  rw [result]
  refine registered.of_le (target_addBackRef _ _ _) fun u x => Nat.le_of_eq ?_
  exact backRefs_congr (congrFun (tables_exchangeEntry_of_not_found _ _ _ _ (congrArg Prod.fst ran)) u)

/-- A link that no other target knows is registered with its new target. -/
theorem Registered.enter (registered : before.Registered)
    (target : after.target = Function.update before.target l (some t))
    (here : ∀ u, after.backRefs u l ≤ if u = t then 1 else 0)
    (elsewhere : ∀ u x, l ≠ x → after.backRefs u x ≤ before.backRefs u x) : after.Registered := by
  refine registered.update target (fun u => ?_) elsewhere
  rw [if_congr (Option.some_inj.trans eq_comm) rfl rfl]
  exact here u

theorem links_removeOwnRef : (state.removeOwnRef l).links = state.links := by
  unfold removeOwnRef
  split
  · exact links_exchangeEntry _ _ _ _
  · rfl

theorem live_removeOwnRef (live : (state.links x).isSome) : ((state.removeOwnRef l).links x).isSome := by
  rw [links_removeOwnRef]
  exact live

theorem target_removeOwnRef : (state.removeOwnRef l).target = state.target := by
  funext x
  exact target_congr (congrFun links_removeOwnRef x)

theorem backRefs_removeOwnRef (state : State L T) (l : L) (u : T) (x : L) :
    (state.removeOwnRef l).backRefs u x ≤
      state.backRefs u x - if l = x ∧ state.target l = some u then 1 else 0 := by
  unfold removeOwnRef
  cases pointing : state.target l with
  | none => simp
  | some t =>
      have bound := backRefs_exchangeEntry state t (some l) none u x
      simp only [Option.some.injEq, reduceCtorEq, and_false, if_false, Nat.add_zero] at bound ⊢
      refine Nat.le_trans bound (Nat.le_of_eq ?_)
      rw [if_congr (and_comm.trans (and_congr_right' eq_comm)) rfl rfl]

/-- A link gives up all that the tables know of it. -/
theorem Registered.removeOwnRef_here (registered : state.Registered) (u : T) :
    (state.removeOwnRef l).backRefs u l = 0 := by
  have bound := backRefs_removeOwnRef state l u l
  have before := registered u l
  simp only [true_and] at bound
  omega

theorem removeOwnRef_elsewhere (u : T) (x : L) :
    (state.removeOwnRef l).backRefs u x ≤ state.backRefs u x :=
  Nat.le_trans (backRefs_removeOwnRef state l u x) (Nat.sub_le _ _)

theorem tables_disconnect : (state.disconnect l).2.tables = (state.removeOwnRef l).tables := by
  unfold disconnect removeOwnRef
  split
  · exact tables_setTarget
  · rfl

theorem backRefs_disconnect (u : T) (x : L) :
    (state.disconnect l).2.backRefs u x = (state.removeOwnRef l).backRefs u x :=
  backRefs_congr (congrFun tables_disconnect u)

theorem target_disconnect :
    (state.disconnect l).2.target = Function.update state.target l none := by
  cases pointing : state.target l with
  | none => rw [disconnect_null pointing, ← pointing, Function.update_eq_self]
  | some t =>
      have live : ((state.removeBackRef t l).2.links l).isSome := by
        rw [removeBackRef, links_exchangeEntry]
        exact live_of_target pointing
      rw [disconnect_pointing pointing, target_setTarget live, removeBackRef, target_exchangeEntry]

theorem live_disconnect (live : (state.links x).isSome) :
    ((state.disconnect l).2.links x).isSome := by
  unfold disconnect
  split
  · refine live_setTarget ?_
    rw [removeBackRef, links_exchangeEntry]
    exact live
  · exact live

theorem Registered.disconnect (registered : state.Registered) : (state.disconnect l).2.Registered := by
  refine registered.update target_disconnect (fun u => ?_) fun u x _ => ?_
  · rw [backRefs_disconnect, registered.removeOwnRef_here]
    exact Nat.zero_le _
  · rw [backRefs_disconnect]
    exact removeOwnRef_elsewhere u x

/-- The entry that the link had with another target goes, and the new one stays. -/
theorem Registered.connect (registered : state.Registered) (live : (state.links l).isSome) :
    (state.connect l t).2.Registered := by
  unfold State.connect
  split
  · rename_i added ran
    have result : added = (state.addBackRef t l).2 := by rw [ran]
    have links : added.links = state.links := by rw [result, links_addBackRef]
    have target : added.target = state.target := by rw [result, target_addBackRef]
    have written : ((added.disconnect l).2.setTarget l (some t)).target =
        Function.update state.target l (some t) := by
      rw [target_setTarget (live_disconnect (links ▸ live)), target_disconnect, target,
        Function.update_idem]
    refine registered.enter written (fun u => ?_) fun u x different => ?_
    · have bound := backRefs_addBackRef state t l u l
      have removed := backRefs_removeOwnRef added l u l
      have before := registered u l
      rw [← result] at bound
      simp only [and_true, true_and, target] at bound removed
      rw [backRefs_setTarget, backRefs_disconnect]
      omega
    · rw [backRefs_setTarget, backRefs_disconnect]
      refine Nat.le_trans (removeOwnRef_elsewhere u x) ?_
      rw [result]
      exact backRefs_addBackRef_of_ne state t different u
  · rename_i same ran
    exact registered.addBackRef_full ran

theorem Registered.constructLink (registered : state.Registered) (absent : state.links l = none) :
    (state.constructLink l).Registered :=
  registered.of_le (target_constructLink absent) fun _ _ => Nat.le_refl _

/-- The end of a link leaves no trace where no target knows it. -/
theorem Registered.destroyLink (registered : state.Registered)
    (forgotten : ∀ t ∈ state.target l, state.backRefs t l = 0) : (state.destroyLink l).Registered := by
  have target : (state.destroyLink l).target = Function.update state.target l none :=
    target_update none
  refine registered.update target (fun u => ?_) fun u x _ => Nat.le_refl _
  by_cases here : state.target l = some u
  · exact Nat.le_of_eq (forgotten u here)
  · exact Nat.le_of_eq (registered.unknown here)

/-- A link that no table has is registered with its new target at most. -/
theorem Registered.register {written : State L T} (registered : state.Registered)
    (target : written.target = Function.update state.target l (some t))
    (here : ∀ u, written.backRefs u l = 0)
    (elsewhere : ∀ u x, l ≠ x → written.backRefs u x ≤ state.backRefs u x) :
    (written.addBackRef t l).2.Registered := by
  refine registered.enter ((target_addBackRef _ _ _).trans target) (fun u => ?_)
    fun u x different => Nat.le_trans (backRefs_addBackRef_of_ne written t different u)
      (elsewhere u x different)
  have bound := backRefs_addBackRef written t l u l
  rw [here, Nat.zero_add] at bound
  simpa only [and_true] using bound

/-- A link that no table has takes the entry of another link, which ends up null unless it is the same. -/
theorem Registered.handOver {written : State L T} (registered : state.Registered)
    (pointing : state.target other = some t)
    (target : written.target = Function.update (Function.update state.target other none) l (some t))
    (here : ∀ u, written.backRefs u l = 0)
    (elsewhere : ∀ u x, l ≠ x → written.backRefs u x ≤ state.backRefs u x) :
    (written.updateBackRef t other l).2.Registered := by
  have moved : (written.updateBackRef t other l).2.target = _ :=
    (target_exchangeEntry _ _ _ _).trans target
  intro u x
  have bound := backRefs_updateBackRef written t other l u x
  rw [moved]
  by_cases atNew : l = x
  · subst atNew
    rw [here, Nat.zero_sub, Nat.zero_add] at bound
    rw [Function.update_self]
    simpa only [and_true, Option.some.injEq, eq_comm] using bound
  · rw [if_neg (fun same : u = t ∧ l = x => atNew same.2), Nat.add_zero] at bound
    rw [Function.update_of_ne (Ne.symm atNew)]
    have before := Nat.le_trans (elsewhere u x atNew) (registered u x)
    by_cases atOld : x = other
    · subst atOld
      rw [pointing] at before
      simp only [and_true, Option.some.injEq, eq_comm] at before bound
      rw [Function.update_self, if_neg (Option.some_ne_none u).symm]
      refine Nat.le_trans bound ?_
      omega
    · rw [Function.update_of_ne atOld]
      exact Nat.le_trans bound (Nat.le_trans (Nat.sub_le _ _) before)

theorem Registered.copyConstructLink (registered : state.Registered) (absent : state.links l = none) :
    (state.copyConstructLink l other).2.Registered := by
  have constructed := registered.constructLink absent
  have null : (state.constructLink l).target l = none := by
    rw [target_constructLink absent, target_of_no_link absent]
  simp only [State.copyConstructLink]
  split
  · rename_i t pointing
    split
    · rename_i added ran
      have result : added = ((state.constructLink l).addBackRef t l).2 := by rw [ran]
      have live : (added.links l).isSome := by
        rw [result, links_addBackRef]
        exact live_constructLink
      have written : (added.setTarget l (some t)).target =
          Function.update (state.constructLink l).target l (some t) := by
        rw [target_setTarget live, result, target_addBackRef]
      refine constructed.enter written (fun u => ?_) fun u x different => ?_
      · have bound := backRefs_addBackRef (state.constructLink l) t l u l
        have apart : (state.constructLink l).target l ≠ some u := by
          rw [null]
          exact (Option.some_ne_none u).symm
        rw [constructed.unknown apart, Nat.zero_add] at bound
        rw [backRefs_setTarget, result]
        simpa only [and_true] using bound
      · rw [backRefs_setTarget, result]
        exact backRefs_addBackRef_of_ne _ t different u
    · rename_i same ran
      exact constructed.addBackRef_full ran
  · exact constructed

/-- A link that no table has becomes null. -/
theorem Registered.release {written : State L T} (registered : state.Registered)
    (target : written.target = Function.update state.target l none)
    (here : ∀ u, written.backRefs u l = 0)
    (elsewhere : ∀ u x, l ≠ x → written.backRefs u x ≤ state.backRefs u x) : written.Registered := by
  refine registered.update target (fun u => ?_) elsewhere
  rw [here]
  exact Nat.zero_le _

theorem Registered.moveConstructLink (registered : state.Registered) (absent : state.links l = none)
    (live : (state.links other).isSome) : (state.moveConstructLink l other).2.Registered := by
  have target := target_takeTarget (l := l) live
  have same (u : T) (x : L) : (state.takeTarget l other).backRefs u x = state.backRefs u x :=
    backRefs_congr (congrFun tables_takeTarget u)
  have null (u : T) : state.target l ≠ some u := by
    rw [target_of_no_link absent]
    exact (Option.some_ne_none u).symm
  have here (u : T) : (state.takeTarget l other).backRefs u l = 0 := by
    rw [same, registered.unknown (null u)]
  have elsewhere (u : T) (x : L) (_ : l ≠ x) := Nat.le_of_eq (same u x)
  unfold State.moveConstructLink
  cases pointing : state.target other with
  | none =>
      rw [← pointing, Function.update_eq_self, pointing] at target
      exact registered.release target here elsewhere
  | some t =>
      rw [pointing] at target
      exact registered.handOver pointing target here elsewhere

theorem Registered.copyAssignLink (registered : state.Registered) (live : (state.links l).isSome) :
    (state.copyAssignLink l other).Registered := by
  have live := live_removeOwnRef (x := l) (l := l) live
  have target : ((state.removeOwnRef l).setTarget l ((state.removeOwnRef l).target other)).target =
      Function.update state.target l (state.target other) := by
    rw [target_setTarget live, target_removeOwnRef]
  have here (u : T) : ((state.removeOwnRef l).setTarget l
      ((state.removeOwnRef l).target other)).backRefs u l = 0 := by
    rw [backRefs_setTarget, registered.removeOwnRef_here]
  have elsewhere (u : T) (x : L) (_ : l ≠ x) : ((state.removeOwnRef l).setTarget l
      ((state.removeOwnRef l).target other)).backRefs u x ≤ state.backRefs u x := by
    rw [backRefs_setTarget]
    exact removeOwnRef_elsewhere u x
  have assigned := congrFun target l
  rw [Function.update_self] at assigned
  simp only [State.copyAssignLink, assigned]
  cases pointing : state.target other with
  | none =>
      rw [pointing] at target
      exact registered.release target here elsewhere
  | some t =>
      rw [pointing] at target
      exact registered.register target here elsewhere

theorem Registered.moveAssignLink (registered : state.Registered) (live : (state.links l).isSome)
    (otherLive : (state.links other).isSome) : (state.moveAssignLink l other).Registered := by
  have live := live_removeOwnRef (x := l) (l := l) live
  have otherLive := live_removeOwnRef (x := other) (l := l) otherLive
  have stillLive : (((state.removeOwnRef l).setTarget other none).links l).isSome := live_setTarget live
  have target : (((state.removeOwnRef l).setTarget other none).setTarget l
      ((state.removeOwnRef l).target other)).target =
      Function.update (Function.update state.target other none) l (state.target other) := by
    rw [target_setTarget stillLive, target_setTarget otherLive, target_removeOwnRef]
  have here (u : T) : (((state.removeOwnRef l).setTarget other none).setTarget l
      ((state.removeOwnRef l).target other)).backRefs u l = 0 := by
    rw [backRefs_setTarget, backRefs_setTarget, registered.removeOwnRef_here]
  have elsewhere (u : T) (x : L) (_ : l ≠ x) : (((state.removeOwnRef l).setTarget other none).setTarget l
      ((state.removeOwnRef l).target other)).backRefs u x ≤ state.backRefs u x := by
    rw [backRefs_setTarget, backRefs_setTarget]
    exact removeOwnRef_elsewhere u x
  have assigned := congrFun target l
  rw [Function.update_self] at assigned
  simp only [State.moveAssignLink, assigned]
  cases pointing : state.target other with
  | none =>
      rw [← pointing, Function.update_eq_self, pointing] at target
      exact registered.release target here elsewhere
  | some t =>
      rw [pointing] at target
      exact registered.handOver pointing target here elsewhere

/-- A table that has no link keeps none. -/
theorem Registered.clear {table : List (Option L)} (registered : before.Registered)
    (links : after.links = before.links)
    (tables : after.tables = Function.update before.tables t (some table))
    (empty : ∀ entry ∈ table, entry = none) : after.Registered := by
  refine registered.of_le ?_ fun u x => ?_
  · funext x
    exact target_congr (congrFun links x)
  · by_cases here : u = t
    · subst here
      have cleared : after.tables u = some table := by rw [tables, Function.update_self]
      have absent : some x ∉ table := fun member => Option.some_ne_none x (empty _ member)
      rw [backRefs_of_table cleared, List.count_eq_zero.mpr absent]
      exact Nat.zero_le _
    · have kept : after.tables u = before.tables u := by rw [tables, Function.update_of_ne here]
      exact Nat.le_of_eq (backRefs_congr kept)

theorem Registered.constructTarget (registered : state.Registered) (maxLink : Nat) :
    (state.constructTarget t maxLink).Registered :=
  registered.clear rfl rfl fun _ => List.eq_of_mem_replicate

theorem Registered.severAllLinks (registered : state.Registered) (live : (state.tables t).isSome) :
    (state.severAllLinks t).Registered := by
  obtain ⟨table, found⟩ := Option.isSome_iff_exists.mp live
  rw [State.severAllLinks, found]
  refine registered.clear rfl rfl fun entry member => ?_
  obtain ⟨_, _, same⟩ := List.mem_map.mp member
  exact same.symm

/-- The links in the table of one target are unknown to the others, wherever they point next. -/
theorem Registered.others {table : List (Option L)} (registered : state.Registered)
    (found : state.tables u = some table) (apart : t ≠ u) :
    state.backRefs t x ≤
      if (if some x ∈ table then value else state.target x) = some t then 1 else 0 := by
  by_cases listed : some x ∈ table
  · have elsewhere : state.target x ≠ some t := by
      rw [registered.pointing found listed]
      exact fun same => apart (Option.some.inj same).symm
    rw [registered.unknown elsewhere]
    exact Nat.zero_le _
  · rw [if_neg listed]
    exact registered t x

/-- The entries come along with their links. -/
theorem Registered.takeOver {table : List (Option L)} (registered : before.Registered)
    (found : before.tables u = some table) (takenOver : TakenOver before after t u table) :
    after.Registered := by
  intro v x
  by_cases atOld : v = u
  · subst atOld
    have absent : some x ∉ List.replicate table.length none :=
      fun member => Option.some_ne_none x (List.eq_of_mem_replicate member)
    rw [backRefs_of_table takenOver.table_old, List.count_eq_zero.mpr absent]
    exact Nat.zero_le _
  · rw [takenOver.target]
    by_cases atNew : v = t
    · subst atNew
      rw [backRefs_of_table (takenOver.table_new atOld)]
      by_cases listed : some x ∈ table
      · rw [if_pos listed, if_pos rfl, ← backRefs_of_table found]
        exact registered.at_most_once
      · rw [List.count_eq_zero.mpr listed]
        exact Nat.zero_le _
    · rw [backRefs_congr (takenOver.table_other atOld atNew)]
      exact registered.others found atOld

theorem Registered.moveConstructTarget (registered : state.Registered)
    (live : (state.tables u).isSome) : (state.moveConstructTarget t u).Registered := by
  obtain ⟨table, found⟩ := Option.isSome_iff_exists.mp live
  exact registered.takeOver found (takenOver_moveConstructTarget t found (registered.table_live found))

theorem Registered.moveAssignTarget (registered : state.Registered) (live : (state.tables t).isSome)
    (otherLive : (state.tables u).isSome) : (state.moveAssignTarget t u).Registered := by
  by_cases same : t = u
  · subst same
    obtain ⟨table, found⟩ := Option.isSome_iff_exists.mp live
    rw [moveAssignTarget_self found]
    exact registered.clear rfl rfl fun _ => List.eq_of_mem_replicate
  · rw [moveAssignTarget_eq same live otherLive]
    exact registered.moveConstructTarget otherLive

theorem Registered.destroyTarget (registered : state.Registered) (live : (state.tables t).isSome) :
    (state.destroyTarget t).Registered := by
  obtain ⟨table, found⟩ := Option.isSome_iff_exists.mp live
  have ended := ended_destroyTarget found (registered.table_live found)
  intro u x
  by_cases here : u = t
  · subst here
    rw [backRefs_of_dead ended.table_gone]
    exact Nat.zero_le _
  · rw [backRefs_congr (ended.table_other here), ended.target]
    exact registered.others found here

end State

variable [DecidableEq T]

/-- The actions together with the assignments, `sever_all_links`, and the destruction of a link that may
point to a target. -/
inductive Operation (L T : Type*) where
  | basic (action : Action L T)
  | endLink (l : L)
  | copyAssignLink (l other : L)
  | moveAssignLink (l other : L)
  | moveAssignTarget (t other : T)
  | severAllLinks (t : T)
  deriving DecidableEq

/-- Move assignment is between targets with the same `MaxLink`. -/
def Operation.Allowed (state : State L T) : Operation L T → Prop
  | .basic action => action.Allowed state
  | .endLink l => (state.links l).isSome
  | .copyAssignLink l other => (state.links l).isSome ∧ (state.links other).isSome
  | .moveAssignLink l other => (state.links l).isSome ∧ (state.links other).isSome
  | .moveAssignTarget t other => (state.tables t).isSome ∧ (state.tables other).isSome ∧
      (state.tables t).map List.length = (state.tables other).map List.length
  | .severAllLinks t => (state.tables t).isSome

instance (state : State L T) : (operation : Operation L T) → Decidable (operation.Allowed state)
  | .basic action => inferInstanceAs (Decidable (action.Allowed state))
  | .endLink _ => inferInstanceAs (Decidable (_ = _))
  | .copyAssignLink _ _ => inferInstanceAs (Decidable (_ ∧ _))
  | .moveAssignLink _ _ => inferInstanceAs (Decidable (_ ∧ _))
  | .moveAssignTarget _ _ => inferInstanceAs (Decidable (_ ∧ _))
  | .severAllLinks _ => inferInstanceAs (Decidable (_ = _))

def Operation.apply (state : State L T) : Operation L T → State L T
  | .basic action => (action.apply state).2
  | .endLink l => state.destroyLink l
  | .copyAssignLink l other => state.copyAssignLink l other
  | .moveAssignLink l other => state.moveAssignLink l other
  | .moveAssignTarget t other => state.moveAssignTarget t other
  | .severAllLinks t => state.severAllLinks t

/-- All operations of links and targets, in any order. -/
def lifetime (L T : Type*) [DecidableEq L] [DecidableEq T] :
    StepSystem (State L T) (Operation L T) (Operation L T) where
  step state operation :=
    if operation.Allowed state then some (operation, operation.apply state) else none

/-- The target of a link, if it has one, has no back pointer to it. -/
def State.Forgotten (state : State L T) (l : L) : Prop :=
  ∀ t ∈ state.target l, state.backRefs t l = 0

instance (state : State L T) (l : L) : Decidable (state.Forgotten l) :=
  inferInstanceAs (Decidable (∀ t ∈ state.target l, state.backRefs t l = 0))

/-- A link ends when it is null or its target does not know it. -/
def Operation.Careful (state : State L T) : Operation L T → Prop
  | .endLink l => state.Forgotten l
  | _ => True

instance (state : State L T) : (operation : Operation L T) → Decidable (operation.Careful state)
  | .endLink l => inferInstanceAs (Decidable (state.Forgotten l))
  | .basic _ | .copyAssignLink _ _ | .moveAssignLink _ _ | .moveAssignTarget _ _ | .severAllLinks _ =>
      inferInstanceAs (Decidable True)

def carefulLifetime (L T : Type*) [DecidableEq L] [DecidableEq T] :
    StepSystem (State L T) (Operation L T) (Operation L T) :=
  (lifetime L T).restrict fun state operation => operation.Careful state

namespace State

variable {state : State L T} {l : L}

theorem Registered.action {action : Action L T} (registered : state.Registered)
    (allowed : action.Allowed state) : (action.apply state).2.Registered := by
  cases action with
  | constructLink l => exact registered.constructLink allowed
  | destroyLink l =>
      refine registered.destroyLink fun t pointing => ?_
      have pointing : state.target l = some t := pointing
      rw [target, show state.links l = some none from allowed] at pointing
      contradiction
  | connect l t => exact registered.connect allowed.1
  | disconnect l => exact registered.disconnect
  | copyConstructLink l other => exact registered.copyConstructLink allowed.1
  | moveConstructLink l other => exact registered.moveConstructLink allowed.1 allowed.2
  | constructTarget t maxLink => exact registered.constructTarget maxLink
  | copyConstructTarget t other =>
      obtain ⟨table, found⟩ := Option.isSome_iff_exists.mp allowed.2
      have result : state.copyConstructTarget t other = state.constructTarget t table.length := by
        rw [State.copyConstructTarget, found]
      change (state.copyConstructTarget t other).Registered
      rw [result]
      exact registered.constructTarget table.length
  | copyAssignTarget t other => exact registered
  | moveConstructTarget t other => exact registered.moveConstructTarget allowed.2
  | destroyTarget t => exact registered.destroyTarget allowed

theorem Registered.apply {operation : Operation L T} (registered : state.Registered)
    (allowed : operation.Allowed state) (careful : operation.Careful state) :
    (operation.apply state).Registered := by
  cases operation with
  | basic action => exact registered.action allowed
  | endLink l => exact registered.destroyLink careful
  | copyAssignLink l other => exact registered.copyAssignLink allowed.1
  | moveAssignLink l other => exact registered.moveAssignLink allowed.1 allowed.2
  | moveAssignTarget t other => exact registered.moveAssignTarget allowed.1 allowed.2.1
  | severAllLinks t => exact registered.severAllLinks allowed

/-- No live target has the address of a link that is gone. -/
def NoDeadEntries (state : State L T) : Prop :=
  ∀ t table l, state.tables t = some table → some l ∈ table → (state.links l).isSome

theorem Registered.noDeadEntries (registered : state.Registered) : state.NoDeadEntries :=
  fun _ _ l found member => registered.table_live found l member

/-- The end of a link leaves no address behind exactly when its target does not know it. -/
theorem Registered.noDeadEntries_destroyLink (registered : state.Registered) :
    (state.destroyLink l).NoDeadEntries ↔ state.Forgotten l := by
  constructor
  · intro living t pointing
    by_contra known
    obtain ⟨table, found, member⟩ := exists_table (Nat.pos_of_ne_zero known)
    have alive := living t table l found member
    have gone : (state.destroyLink l).links l = none := by simp [State.destroyLink]
    rw [gone] at alive
    contradiction
  · exact fun forgotten => (registered.destroyLink forgotten).noDeadEntries

/-- The loops over the back pointers of a target write to live links only. -/
structure WritesToLive (state : State L T) (t : T) : Prop where
  destroyed : (state.destroyTarget t).dangled = state.dangled
  moved : ∀ u, state.tables u = none → (state.moveConstructTarget u t).dangled = state.dangled
  assigned : ∀ u, (state.tables u).isSome → (state.moveAssignTarget u t).dangled = state.dangled

theorem NoDeadEntries.writesToLive {t : T} (living : state.NoDeadEntries)
    (live : (state.tables t).isSome) : state.WritesToLive t := by
  obtain ⟨table, found⟩ := Option.isSome_iff_exists.mp live
  have moved (u : T) := (takenOver_moveConstructTarget u found (living t table · found)).dangled
  refine ⟨(ended_destroyTarget found (living t table · found)).dangled, fun u _ => moved u,
    fun u otherLive => ?_⟩
  by_cases same : u = t
  · subst same
    rw [moveAssignTarget_self found]
  · rw [moveAssignTarget_eq same otherLive live]
    exact moved u

end State

/-- In every run that ends links only when their targets do not know them, no live target has the address
of a link that is gone, and the later writes of the targets go to live links. One more link can end
exactly when its target does not know it. -/
theorem ended_links_forgotten {history : List (Operation L T)} {state : State L T}
    (run : (carefulLifetime L T).Run {} history state) :
    state.NoDeadEntries ∧ (∀ t, (state.tables t).isSome → state.WritesToLive t) ∧
      ∀ l, (state.destroyLink l).NoDeadEntries ↔ state.Forgotten l := by
  have registered : state.Registered := by
    refine run.invariant (fun _ state => state.Registered) (fun t l => ?_) ?_
    · rw [State.backRefs_of_dead rfl]
      exact Nat.zero_le _
    · intro history before operation event after registered stepped
      obtain ⟨careful, stepped⟩ := StepSystem.restrict_step.mp stepped
      simp only [lifetime, Option.ite_none_right_eq_some, Option.some.injEq, Prod.mk.injEq] at stepped
      obtain ⟨allowed, -, rfl⟩ := stepped
      exact registered.apply allowed careful
  have living := registered.noDeadEntries
  exact ⟨living, fun t => living.writesToLive, fun l => registered.noDeadEntries_destroyLink⟩

/-- A link is disconnected before it ends, and its target lives on with another link. -/
def partedOperations : List (Operation Nat Nat) :=
  [.basic (.constructTarget 0 2), .basic (.constructLink 0), .basic (.connect 0 0),
    .basic (.copyConstructLink 1 0), .basic (.disconnect 0), .endLink 0]

theorem ended_links_forgotten_parted :
    ∃ history state, (carefulLifetime Nat Nat).execute {} partedOperations = some (history, state) ∧
      state.NoDeadEntries ∧ (∀ t, (state.tables t).isSome → state.WritesToLive t) ∧
        ∀ l, (state.destroyLink l).NoDeadEntries ↔ state.Forgotten l := by
  obtain ⟨history, state, executed⟩ : ∃ history state,
      (carefulLifetime Nat Nat).execute {} partedOperations = some (history, state) := ⟨_, _, rfl⟩
  exact ⟨history, state, executed,
    ended_links_forgotten (StepSystem.run_of_execute partedOperations executed)⟩

/-- The end of a connected link leaves its address in the table, and the end of the target writes there. -/
theorem ended_links_known :
    ∃ history state, (lifetime Nat Nat).execute {} [.basic (.constructTarget 0 1),
        .basic (.constructLink 0), .basic (.connect 0 0), .endLink 0] = some (history, state) ∧
      state.dangled = false ∧ ¬state.NoDeadEntries ∧ (state.destroyTarget 0).dangled = true := by
  refine ⟨_, _, rfl, rfl, ?_, rfl⟩
  intro living
  exact absurd (living 0 [some 0] 0 rfl List.mem_cons_self) (by decide)

end MartCommon.Experimental.Link

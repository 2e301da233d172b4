import Mathlib.Data.List.Forall2
import Mathlib.Data.List.Perm.Basic

namespace MartCommon.Library

/-- A pool holds values under their keys. -/
abbrev Pool (Key Value : Type*) := List (Key × Value)

namespace Pool

variable {Key Value : Type*}

/-- The values of a pool. -/
def values (pool : Pool Key Value) : List Value := pool.map Prod.snd

/-- An entry of a pool can leave it. -/
theorem perm_of_mem {entry : Key × Value} {pool : Pool Key Value} (member : entry ∈ pool) :
    ∃ rest, pool.Perm (entry :: rest) := by
  obtain ⟨front, back, rfl⟩ := List.append_of_mem member
  exact ⟨front ++ back, List.perm_middle⟩

/-- Where the entries of two pools have the same keys and related values, each entry belongs to one of the
other pool. -/
theorem exists_of_related {Value' : Type*} {related : Value → Value' → Prop} {pool : Pool Key Value}
    {pool' : Pool Key Value'} {key : Key} {value' : Value'}
    (alike : List.Forall₂ (fun entry entry' => entry.1 = entry'.1 ∧ related entry.2 entry'.2) pool pool')
    (member : (key, value') ∈ pool') : ∃ value, (key, value) ∈ pool ∧ related value value' := by
  induction alike with
  | nil => contradiction
  | cons first others ih =>
      rcases List.mem_cons.mp member with here | later
      · subst here
        obtain ⟨same, holds⟩ := first
        exact ⟨_, List.mem_cons.mpr (.inl (Prod.ext same.symm rfl)), holds⟩
      · obtain ⟨value, found, holds⟩ := ih later
        exact ⟨value, List.mem_cons_of_mem _ found, holds⟩

section Take

variable [DecidableEq Key]

/-- The value of a key leaves the pool. -/
def take (key : Key) : Pool Key Value → Option (Value × Pool Key Value)
  | [] => none
  | entry :: rest =>
      if entry.1 = key then some (entry.2, rest)
      else (take key rest).map fun taken => (taken.1, entry :: taken.2)

/-- The value under a key. -/
def get (key : Key) (pool : Pool Key Value) : Option Value := (take key pool).map Prod.fst

theorem get_cons_self (key : Key) (value : Value) (pool : Pool Key Value) :
    get key ((key, value) :: pool) = some value := by
  simp [get, take]

theorem get_cons_of_ne {key other : Key} (apart : other ≠ key) (value : Value)
    (pool : Pool Key Value) : get key ((other, value) :: pool) = get key pool := by
  simp [get, take, apart, Function.comp_def]

/-- What leaves under another key does not matter. -/
theorem get_of_take {key other : Key} (apart : other ≠ key) {pool rest : Pool Key Value}
    {value : Value} (taken : take other pool = some (value, rest)) : get key rest = get key pool := by
  induction pool generalizing rest with
  | nil => contradiction
  | cons entry others ih =>
      rw [take] at taken
      split at taken
      · rename_i same
        obtain ⟨rfl, rfl⟩ := Prod.mk.inj (Option.some.inj taken)
        exact (get_cons_of_ne (same ▸ apart) entry.2 _).symm
      · obtain ⟨⟨found, left⟩, later, same⟩ := Option.map_eq_some_iff.mp taken
        obtain ⟨rfl, rfl⟩ := Prod.mk.inj same
        by_cases here : entry.1 = key
        · simp [get, take, here]
        · rw [get_cons_of_ne here entry.2, get_cons_of_ne here entry.2, ih later]

/-- The values of several keys leave the pool one after the other. -/
def takeAll : List Key → Pool Key Value → Option (List Value × Pool Key Value)
  | [], pool => some ([], pool)
  | key :: keys, pool =>
      (take key pool).bind fun taken =>
        (takeAll keys taken.2).map fun others => (taken.1 :: others.1, others.2)

/-- A pool consists of what leaves it and what stays. -/
theorem take_perm {key : Key} {pool rest : Pool Key Value} {value : Value}
    (taken : take key pool = some (value, rest)) : pool.Perm ((key, value) :: rest) := by
  induction pool generalizing rest with
  | nil => contradiction
  | cons entry others ih =>
      rw [take] at taken
      split at taken
      · rename_i same
        simp only [Option.some.injEq, Prod.mk.injEq] at taken
        obtain ⟨rfl, rfl⟩ := taken
        subst same
        exact .refl _
      · simp only [Option.map_eq_some_iff, Prod.mk.injEq] at taken
        obtain ⟨⟨found, left⟩, later, rfl, rfl⟩ := taken
        exact ((ih later).cons entry).trans (.swap _ _ _)

/-- The one value that leaves is the one under the key. -/
theorem takeAll_one {key : Key} {pool rest : Pool Key Value} {value : Value} {taken : List Value}
    (found : get key pool = some value) (all : takeAll [key] pool = some (taken, rest)) :
    taken = [value] := by
  obtain ⟨⟨first, middle⟩, left, same⟩ := Option.map_eq_some_iff.mp found
  obtain rfl : first = value := same
  rw [takeAll, left] at all
  cases all
  rfl

theorem mem_keys {key : Key} {pool : Pool Key Value} {value : Value}
    (found : get key pool = some value) : key ∈ pool.map Prod.fst := by
  obtain ⟨⟨_, rest⟩, taken, rfl⟩ := Option.map_eq_some_iff.mp found
  exact ((take_perm taken).map Prod.fst).mem_iff.mpr List.mem_cons_self

/-- Where each key has one entry, the value under a key is the one of its entry. -/
theorem get_of_mem {key : Key} {pool : Pool Key Value} {value : Value}
    (distinct : (pool.map Prod.fst).Nodup) (member : (key, value) ∈ pool) :
    get key pool = some value := by
  induction pool with
  | nil => contradiction
  | cons entry rest ih =>
      rw [List.map_cons, List.nodup_cons] at distinct
      rcases List.mem_cons.mp member with here | later
      · rw [← here]
        exact get_cons_self key value rest
      · have apart : entry.1 ≠ key := by
          intro same
          exact distinct.1 (same ▸ List.mem_map_of_mem later)
        rw [get_cons_of_ne apart entry.2, ih distinct.2 later]

theorem get_of_notMem {key : Key} {pool : Pool Key Value} (absent : key ∉ pool.map Prod.fst) :
    get key pool = none := by
  induction pool with
  | nil => rfl
  | cons entry rest ih =>
      rw [List.map_cons, List.mem_cons, not_or] at absent
      rw [get_cons_of_ne (Ne.symm absent.1) entry.2, ih absent.2]

theorem mem_of_get {key : Key} {pool : Pool Key Value} {value : Value}
    (found : get key pool = some value) : (key, value) ∈ pool := by
  obtain ⟨⟨_, rest⟩, taken, rfl⟩ := Option.map_eq_some_iff.mp found
  exact (take_perm taken).mem_iff.mpr List.mem_cons_self

/-- A pool consists of the entries that leave it and those that stay. -/
theorem takeAll_perm {keys : List Key} {pool rest : Pool Key Value} {taken : List Value}
    (all : takeAll keys pool = some (taken, rest)) :
    pool.Perm (keys.zip taken ++ rest) ∧ taken.length = keys.length := by
  induction keys generalizing pool taken with
  | nil =>
      cases all
      exact ⟨.refl _, rfl⟩
  | cons key keys ih =>
      simp only [takeAll, Option.bind_eq_some_iff, Option.map_eq_some_iff, Prod.mk.injEq] at all
      obtain ⟨⟨value, middle⟩, first, ⟨others, left⟩, later, rfl, rfl⟩ := all
      obtain ⟨perm, length⟩ := ih later
      exact ⟨(take_perm first).trans (perm.cons _), congrArg (· + 1) length⟩

/-- The value that left and the values that stay are the values of the pool. -/
theorem values_take {key : Key} {pool rest : Pool Key Value} {value : Value}
    (taken : take key pool = some (value, rest)) : (values pool).Perm (value :: values rest) :=
  (take_perm taken).map Prod.snd

/-- The same holds for several values. -/
theorem values_takeAll {keys : List Key} {pool rest : Pool Key Value} {taken : List Value}
    (all : takeAll keys pool = some (taken, rest)) :
    (values pool).Perm (taken ++ values rest) ∧ taken.length = keys.length := by
  induction keys generalizing pool taken with
  | nil =>
      simp only [takeAll, Option.some.injEq, Prod.mk.injEq] at all
      obtain ⟨rfl, rfl⟩ := all
      exact ⟨.refl _, rfl⟩
  | cons key keys ih =>
      simp only [takeAll, Option.bind_eq_some_iff, Option.map_eq_some_iff, Prod.mk.injEq] at all
      obtain ⟨⟨value, middle⟩, first, ⟨others, left⟩, later, rfl, rfl⟩ := all
      obtain ⟨perm, length⟩ := ih later
      refine ⟨?_, by simp [length]⟩
      exact (values_take first).trans (perm.cons value)

end Take

/-- Keys and values that match in number enter a pool as its values. -/
theorem values_zip {keys : List Key} {entering : List Value}
    (matched : keys.length = entering.length) : values (keys.zip entering) = entering := by
  rw [values, List.map_snd_zip]
  omega

/-- The values of a joined pool come in the order of its parts. -/
@[simp] theorem values_append (first second : Pool Key Value) :
    values (first ++ second) = values first ++ values second := by
  simp [values]

@[simp] theorem values_cons (entry : Key × Value) (rest : Pool Key Value) :
    values (entry :: rest) = entry.2 :: values rest := rfl

end Pool

end MartCommon.Library

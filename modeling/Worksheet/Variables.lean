/-
**The variables of a sheet.**

Names with their values, in the order in which the names were first set. A name occurs once;
setting it again changes its value where it stands, and nothing is ever removed. An index knows
where each name stands, so that no name is searched for among the others.

* `Bindings.IsIndex` is what the index has to know;
* `Variables` is a list of bindings with its index;
* `Variables.get?` and `Variables.set` look a name up and bind it;
* `mem_bindings_iff`: looking up finds the bindings of the list and no others;
* `get?_set` and `names_set` say what setting does to the values and to the order of the names.
-/

import Worksheet.Value

namespace Worksheet

/-! ### The index of a list of bindings -/

namespace Bindings

/-- The index knows the place of each name among the bindings, and no place of another name. -/
def IsIndex (index : Text → Option Nat) (bindings : List (Text × Value)) : Prop :=
  ∀ name place, index name = some place ↔ (bindings.map Prod.fst)[place]? = some name

/-- A new value at a place leaves the names as they are. -/
theorem map_fst_modify (bindings : List (Text × Value)) (place : Nat) (value : Value) :
    (bindings.modify place fun binding => (binding.1, value)).map Prod.fst =
      bindings.map Prod.fst := by
  refine List.ext_getElem? fun other => ?_
  rw [List.getElem?_map, List.getElem?_modify, List.getElem?_map]
  cases bindings[other]? with
  | none => rfl
  | some binding => by_cases same : place = other <;> simp [same]

variable {index : Text → Option Nat} {bindings : List (Text × Value)} {name : Text}

theorem isIndex_nil : IsIndex (fun _ => none) [] := by
  intro name place
  simp

/-- What the index knows lies within the list. -/
theorem IsIndex.lt_length (isIndex : IsIndex index bindings) {place : Nat}
    (known : index name = some place) : place < bindings.length := by
  obtain ⟨within, -⟩ := List.getElem?_eq_some_iff.mp ((isIndex name place).mp known)
  rwa [List.length_map] at within

/-- Where a binding stands is the place of its name. -/
theorem IsIndex.eq_some (isIndex : IsIndex index bindings) {place : Nat} {binding : Text × Value}
    (here : bindings[place]? = some binding) : index binding.1 = some place := by
  rw [isIndex binding.1 place, List.getElem?_map, here, Option.map_some]

/-- At the place of a name stands a binding of the name. -/
theorem IsIndex.fst_getElem (isIndex : IsIndex index bindings) {place : Nat}
    (known : index name = some place) (within : place < bindings.length) :
    bindings[place].1 = name := by
  have named := (isIndex name place).mp known
  rwa [List.getElem?_map, List.getElem?_eq_getElem within, Option.map_some,
    Option.some.injEq] at named

/-- Names that have one place each are distinct. -/
theorem IsIndex.nodup (isIndex : IsIndex index bindings) : (bindings.map Prod.fst).Nodup := by
  refine List.pairwise_iff_getElem.mpr fun place other within withinToo before same => ?_
  have first := (isIndex _ place).mpr (List.getElem?_eq_getElem within)
  have second := (isIndex _ other).mpr (List.getElem?_eq_getElem withinToo)
  rw [same, second, Option.some.injEq] at first
  omega

/-- Only a name that is not bound is not known to the index. -/
theorem IsIndex.eq_none_iff (isIndex : IsIndex index bindings) :
    index name = none ↔ name ∉ bindings.map Prod.fst := by
  rw [Option.eq_none_iff_forall_ne_some, List.mem_iff_getElem?]
  simp only [ne_eq, isIndex name, not_exists]

/-- A new value leaves the index right. -/
theorem IsIndex.modify (isIndex : IsIndex index bindings) (place : Nat) (value : Value) :
    IsIndex index (bindings.modify place fun binding => (binding.1, value)) := by
  unfold IsIndex
  rwa [map_fst_modify]

/-- A new name stands behind all others. -/
theorem IsIndex.concat (isIndex : IsIndex index bindings) (new : index name = none)
    (value : Value) :
    IsIndex (fun other => if other = name then some bindings.length else index other)
      (bindings ++ [(name, value)]) := by
  intro other place
  have absent := isIndex.eq_none_iff.mp new
  rw [List.map_append, List.getElem?_append, List.length_map]
  dsimp only
  by_cases within : place < bindings.length
  · rw [if_pos within, ← isIndex other place]
    by_cases same : other = name
    · subst same
      have elsewhere : bindings.length ≠ place := by omega
      simp [new, elsewhere]
    · rw [if_neg same]
  · rw [if_neg within]
    by_cases same : other = name
    · subst same
      rw [if_pos rfl, Option.some.injEq]
      constructor
      · rintro rfl
        simp
      · intro found
        have := (List.getElem?_eq_some_iff.mp found).1
        simp at this
        omega
    · rw [if_neg same]
      constructor
      · intro known
        exact absurd (isIndex.lt_length known) within
      · intro found
        have isIn := List.mem_of_getElem? found
        rw [List.map_singleton, List.mem_singleton] at isIn
        exact absurd isIn same

end Bindings

/-! ### Variables -/

/-- Names with their values, and where each name stands. -/
structure Variables where
  /-- The names with their values, in the order in which the names were first set. -/
  bindings : List (Text × Value) := []
  /-- The place of each name among the bindings. -/
  index : Text → Option Nat := fun _ => none
  indexed : Bindings.IsIndex index bindings := by exact Bindings.isIndex_nil

namespace Variables

/-- No variables. -/
def empty : Variables := {}

/-- The names, in the order in which they were first set. -/
def names (scope : Variables) : List Text :=
  scope.bindings.map Prod.fst

/-- The value of a name: what stands at its place. -/
def get? (scope : Variables) (name : Text) : Option Value :=
  match known : scope.index name with
  | some place =>
    have := scope.indexed.lt_length known
    some scope.bindings[place].2
  | none => none

/-- Binds a name to a value, where it stands or behind all others. -/
def set (scope : Variables) (name : Text) (value : Value) : Variables :=
  match known : scope.index name with
  | some place =>
    { bindings := scope.bindings.modify place fun binding => (binding.1, value)
      index := scope.index
      indexed := scope.indexed.modify place value }
  | none =>
    { bindings := scope.bindings ++ [(name, value)]
      index := fun other => if other = name then some scope.bindings.length else scope.index other
      indexed := scope.indexed.concat known value }

/-- Binds names to values one after the other. -/
def setAll (scope : Variables) (values : List (Text × Value)) : Variables :=
  values.foldl (fun known (name, value) => known.set name value) scope

/-- The number of names. -/
def size (scope : Variables) : Nat :=
  scope.bindings.length

/-- The variables of a new sheet: the name `today` alone. -/
def ofToday (today : Date) : Variables :=
  empty.set "today".toList (.date today)

/-! ### Small laws -/

theorem distinct (scope : Variables) : scope.names.Nodup :=
  scope.indexed.nodup

/-- Looking up finds the bindings of the list and no others. -/
theorem mem_bindings_iff (scope : Variables) (name : Text) (value : Value) :
    (name, value) ∈ scope.bindings ↔ scope.get? name = some value := by
  unfold get?
  constructor
  · intro isIn
    obtain ⟨place, found⟩ := List.mem_iff_getElem?.mp isIn
    have isPlace : scope.index name = some place := scope.indexed.eq_some found
    obtain ⟨within, here⟩ := List.getElem?_eq_some_iff.mp found
    split
    next other known =>
      obtain rfl : place = other := Option.some.inj (isPlace.symm.trans known)
      simp only [here]
    next unknown =>
      rw [unknown] at isPlace
      cases isPlace
  · intro found
    split at found
    next place known =>
      have within := scope.indexed.lt_length known
      have named := scope.indexed.fst_getElem known within
      rw [Option.some.injEq] at found
      rw [← named, ← found]
      exact List.getElem_mem within
    next => cases found

theorem names_set (scope : Variables) (name : Text) (value : Value) :
    (scope.set name value).names =
      if name ∈ scope.names then scope.names else scope.names ++ [name] := by
  unfold set names
  split
  next place known =>
    have isIn : name ∈ scope.bindings.map Prod.fst :=
      List.mem_of_getElem? ((scope.indexed name place).mp known)
    rw [if_pos isIn]
    exact Bindings.map_fst_modify _ _ _
  next unknown =>
    rw [if_neg (scope.indexed.eq_none_iff.mp unknown)]
    exact List.map_append

/-- Behind a binding there are the new one and those of other names. -/
theorem mem_bindings_set (scope : Variables) (name : Text) (value : Value)
    (binding : Text × Value) :
    binding ∈ (scope.set name value).bindings ↔
      binding = (name, value) ∨ binding ∈ scope.bindings ∧ binding.1 ≠ name := by
  unfold set
  split
  next place known =>
    have within := scope.indexed.lt_length known
    have named := scope.indexed.fst_getElem known within
    -- The place of the name is the only one whose binding changes.
    have isPlace {other : Nat} {found : Text × Value} (here : scope.bindings[other]? = some found)
        (same : found.1 = name) : place = other := by
      have isKnown := scope.indexed.eq_some here
      rw [same, known] at isKnown
      exact Option.some.inj isKnown
    simp only [List.mem_iff_getElem?, List.getElem?_modify]
    constructor
    · rintro ⟨other, here⟩
      obtain ⟨found, isFound, rfl⟩ := Option.map_eq_some_iff.mp here
      by_cases same : place = other
      · subst same
        rw [List.getElem?_eq_getElem within, Option.some.injEq] at isFound
        left
        rw [if_pos rfl, ← isFound, named]
      · rw [if_neg same]
        exact Or.inr ⟨⟨other, isFound⟩, fun isName => same (isPlace isFound isName)⟩
    · rintro (rfl | ⟨⟨other, here⟩, different⟩)
      · refine ⟨place, ?_⟩
        rw [List.getElem?_eq_getElem within, Option.map_eq_map, Option.map_some, if_pos rfl, named]
      · refine ⟨other, ?_⟩
        have elsewhere : place ≠ other := by
          rintro rfl
          rw [List.getElem?_eq_getElem within, Option.some.injEq] at here
          exact different (here ▸ named)
        rw [here, Option.map_eq_map, Option.map_some, if_neg elsewhere]
  next unknown =>
    have absent := scope.indexed.eq_none_iff.mp unknown
    rw [List.mem_append, List.mem_singleton, or_comm]
    refine or_congr_right (iff_self_and.mpr fun isIn same => absent ?_)
    rw [← same]
    exact List.mem_map_of_mem isIn

theorem get?_set (scope : Variables) (name other : Text) (value : Value) :
    (scope.set name value).get? other =
      if other = name then some value else scope.get? other := by
  refine Option.ext fun found => ?_
  rw [← mem_bindings_iff, mem_bindings_set, mem_bindings_iff, Prod.mk.injEq]
  by_cases same : other = name
  · simp [same, eq_comm]
  · simp [same]

end Variables

end Worksheet

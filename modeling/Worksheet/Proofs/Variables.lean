/-
**Setting many variables.**

What a sheet does to its variables is a list of bindings, set one after the other. Of several
bindings of one name the last one counts, and the first one decides where the name stands.

* `Bindings.latest?` is the last value that a list of bindings has for a name;
* `get?_setAll` and `names_setAll` are the values and the order of the names behind such a list;
* `Variables.eq_of_get?_eq`: variables are determined by their names and their values;
* `setAll_empty_record`: index, names and values behind whatever was set from nothing;
* `setAll_setAll`: setting the same bindings again changes nothing;
* `get?_setAll_append_comm`: bindings of distinct names can be set in either order.
-/

import Mathlib.Data.Finset.Card
import Mathlib.Data.List.Nodup
import Worksheet.Variables

namespace Worksheet

namespace Bindings

/-! ### The last binding of a name -/

/-- The value that a name is bound to last. -/
def latest? (name : Text) (bindings : List (Text × Value)) : Option Value :=
  bindings.reverse.lookup name

@[simp] theorem latest?_nil (name : Text) : latest? name [] = none :=
  rfl

theorem latest?_append (name : Text) (front back : List (Text × Value)) :
    latest? name (front ++ back) = (latest? name back).or (latest? name front) := by
  unfold latest?
  rw [List.reverse_append, List.lookup_append]

theorem latest?_cons (name : Text) (binding : Text × Value) (others : List (Text × Value)) :
    latest? name (binding :: others) =
      (latest? name others).or (if name = binding.1 then some binding.2 else none) := by
  obtain ⟨first, value⟩ := binding
  rw [← List.singleton_append, latest?_append]
  by_cases same : name = first
  · simp [latest?, same]
  · simp [latest?, List.lookup_cons, same, beq_false_of_ne same]

/-- Only a name that is not bound has no last value. -/
theorem latest?_eq_none_iff (name : Text) (bindings : List (Text × Value)) :
    latest? name bindings = none ↔ name ∉ bindings.map Prod.fst := by
  induction bindings with
  | nil => simp
  | cons binding others ih => simp [latest?_cons, Option.or_eq_none_iff, ih, and_comm]

/-! ### Distinct names -/

/-- Distinct names are not thinned out. -/
theorem eraseDups_eq_self {names : List Text} (distinct : names.Nodup) :
    names.eraseDups = names := by
  induction names with
  | nil => rfl
  | cons name others ih =>
    rw [List.nodup_cons] at distinct
    have kept : others.filter (fun other => !other == name) = others := by
      refine List.filter_eq_self.mpr fun other isOther => ?_
      have different : other ≠ name := fun same => distinct.1 (same ▸ isOther)
      simpa using different
    rw [List.eraseDups_cons, kept, ih distinct.2]

end Bindings

namespace Variables

open Bindings (latest? latest?_append latest?_cons latest?_eq_none_iff)

/-- The bindings are the names, each with its value. -/
theorem bindings_eq (scope : Variables) :
    scope.bindings = scope.names.filterMap fun name => (scope.get? name).map (Prod.mk name) := by
  have each : ∀ binding ∈ scope.bindings,
      (scope.get? binding.1).map (Prod.mk binding.1) = some binding := by
    intro binding isIn
    rw [(scope.mem_bindings_iff binding.1 binding.2).mp isIn, Option.map_some]
  calc scope.bindings
    _ = scope.bindings.filterMap some := List.filterMap_some.symm
    _ = scope.bindings.filterMap fun binding =>
          (scope.get? binding.1).map (Prod.mk binding.1) := (List.filterMap_congr each).symm
    _ = scope.names.filterMap fun name => (scope.get? name).map (Prod.mk name) := by
          rw [names, List.filterMap_map]
          rfl

/-- The index is determined by the names. -/
theorem index_eq_of_names_eq {scope other : Variables} (names : scope.names = other.names) :
    scope.index = other.index := by
  refine funext fun name => Option.ext fun place => ?_
  rw [scope.indexed name place, other.indexed name place]
  exact iff_of_eq (congrArg (fun known : List Text => known[place]? = some name) names)

/-- Variables with the same names in the same order and with the same values are the same. -/
theorem eq_of_get?_eq {scope other : Variables} (names : scope.names = other.names)
    (values : ∀ name, scope.get? name = other.get? name) : scope = other := by
  have bindings : scope.bindings = other.bindings := by
    rw [bindings_eq scope, bindings_eq other, names, funext values]
  have index := index_eq_of_names_eq names
  obtain ⟨_, _, _⟩ := scope
  obtain ⟨_, _, _⟩ := other
  cases bindings
  cases index
  rfl

/-! ### Many bindings -/

variable (scope : Variables) (values : List (Text × Value))

@[simp] theorem setAll_nil : scope.setAll [] = scope :=
  rfl

@[simp] theorem setAll_cons (name : Text) (value : Value) :
    scope.setAll ((name, value) :: values) = (scope.set name value).setAll values :=
  rfl

theorem setAll_append (front back : List (Text × Value)) :
    scope.setAll (front ++ back) = (scope.setAll front).setAll back :=
  List.foldl_append

/-- **The last value counts**: a name has the value that it is bound to last, or else the one it had
before. -/
theorem get?_setAll (name : Text) :
    (scope.setAll values).get? name = (latest? name values).or (scope.get? name) := by
  induction values generalizing scope with
  | nil => rfl
  | cons binding others ih =>
    rw [setAll_cons, ih, get?_set, latest?_cons, Option.or_assoc]
    by_cases same : name = binding.1
    · simp [same]
    · simp [same]

/-- **The first time counts**: new names stand behind those known before, in the order in which they
are first bound. -/
theorem names_setAll :
    (scope.setAll values).names =
      scope.names ++ ((values.map Prod.fst).filter (· ∉ scope.names)).eraseDups := by
  induction values generalizing scope with
  | nil => simp
  | cons binding others ih =>
    rw [setAll_cons, ih, names_set, List.map_cons]
    by_cases known : binding.1 ∈ scope.names
    · rw [if_pos known, List.filter_cons_of_neg (by simpa using known)]
    · rw [if_neg known, List.filter_cons_of_pos (by simpa using known), List.eraseDups_cons,
        List.filter_filter, List.append_assoc, List.singleton_append]
      congr 3
      refine List.filter_congr fun name _ => ?_
      by_cases same : name = binding.1 <;> simp [same]

/-- The names behind a list of bindings are those known before and those bound. -/
theorem mem_names_setAll (name : Text) :
    name ∈ (scope.setAll values).names ↔ name ∈ scope.names ∨ name ∈ values.map Prod.fst := by
  rw [names_setAll, List.mem_append, List.mem_eraseDups, List.mem_filter, decide_eq_true_eq]
  tauto

/-- What is set from nothing is named in the order in which the names are first bound. -/
theorem names_setAll_empty : (empty.setAll values).names = (values.map Prod.fst).eraseDups := by
  have noNames : empty.names = [] := rfl
  have allNew : (values.map Prod.fst).filter (· ∉ ([] : List Text)) = values.map Prod.fst :=
    List.filter_eq_self.mpr fun name _ => decide_eq_true List.not_mem_nil
  rw [names_setAll, noNames, allNew, List.nil_append]

/-- There are as many variables as distinct names. -/
theorem size_eq_card : scope.size = scope.names.toFinset.card := by
  rw [List.toFinset_card_of_nodup scope.distinct]
  exact (List.length_map Prod.fst).symm

/-- **Variables are an ordered record of what was set.** Whatever is set from nothing, the index
knows a name at a place just if a binding of that name stands there, and no name stands at two
places. A name has the value that it was set to last, and none if it was never set. The names stand
in the order in which they were first set, each with its last value, and there are as many as
different names were set. -/
theorem setAll_empty_record :
    (∀ name place, (empty.setAll values).index name = some place ↔
      ∃ value, (empty.setAll values).bindings[place]? = some (name, value)) ∧
    (empty.setAll values).names.Nodup ∧
    (∀ name, (empty.setAll values).get? name = latest? name values) ∧
    (∀ name, (empty.setAll values).get? name = none ↔ name ∉ values.map Prod.fst) ∧
    (empty.setAll values).names = (values.map Prod.fst).eraseDups ∧
    (∀ name value, (name, value) ∈ (empty.setAll values).bindings →
      latest? name values = some value) ∧
    (empty.setAll values).size = (values.map Prod.fst).toFinset.card := by
  have lookedUp (name : Text) : (empty.setAll values).get? name = latest? name values := by
    have nothing : empty.get? name = none := rfl
    rw [get?_setAll, nothing, Option.or_none]
  refine ⟨fun name place => ?_, distinct _, lookedUp, fun name => ?_, names_setAll_empty values,
    fun name value isIn => ?_, ?_⟩
  · rw [(empty.setAll values).indexed name place, List.getElem?_map, Option.map_eq_some_iff]
    constructor
    · rintro ⟨⟨found, value⟩, here, rfl⟩
      exact ⟨value, here⟩
    · rintro ⟨value, here⟩
      exact ⟨(name, value), here, rfl⟩
  · rw [lookedUp, latest?_eq_none_iff]
  · rw [← lookedUp, ← mem_bindings_iff]
    exact isIn
  · rw [size_eq_card, names_setAll_empty]
    congr 1
    ext name
    rw [List.mem_toFinset, List.mem_toFinset, List.mem_eraseDups]

/-- **Binding again what was bound changes nothing.** -/
theorem setAll_setAll : (scope.setAll values).setAll values = scope.setAll values := by
  apply eq_of_get?_eq
  · -- All names are known by now.
    have noneNew : (values.map Prod.fst).filter (· ∉ (scope.setAll values).names) = [] := by
      rw [List.filter_eq_nil_iff]
      intro name isIn
      simp [mem_names_setAll, isIn]
    rw [names_setAll (scope.setAll values), noneNew, List.eraseDups_nil, List.append_nil]
  · intro name
    rw [get?_setAll (scope.setAll values), get?_setAll, ← Option.or_assoc, Option.or_self]

/-- Bindings of distinct names can be set in either order. -/
theorem get?_setAll_append_comm {front back : List (Text × Value)}
    (distinct : ((front ++ back).map Prod.fst).Nodup) (name : Text) :
    (scope.setAll (back ++ front)).get? name = (scope.setAll (front ++ back)).get? name := by
  rw [get?_setAll, get?_setAll, latest?_append, latest?_append]
  cases bound : latest? name front with
  | none => rw [Option.none_or, Option.or_none]
  | some value =>
    have isEarlier : name ∈ front.map Prod.fst := by
      by_contra absent
      rw [(latest?_eq_none_iff name front).mpr absent] at bound
      cases bound
    have notLater : name ∉ back.map Prod.fst := by
      rw [List.map_append, List.nodup_append] at distinct
      exact fun isLater => distinct.2.2 name isEarlier name isLater rfl
    rw [(latest?_eq_none_iff name back).mpr notLater, Option.none_or, Option.or_none]

/-- New names that are bound once each stand behind those known before. -/
theorem names_setAll_of_nodup (distinct : (values.map Prod.fst).Nodup) :
    (scope.setAll values).names =
      scope.names ++ (values.map Prod.fst).filter (· ∉ scope.names) := by
  rw [names_setAll, Bindings.eraseDups_eq_self (distinct.filter _)]

/-- Variables that differ at most in names bound later still do so behind some of the bindings. -/
theorem get?_setAll_congr {scope other : Variables} {front back : List (Text × Value)}
    (agree : ∀ name, name ∉ (front ++ back).map Prod.fst → other.get? name = scope.get? name)
    (name : Text) (notLater : name ∉ back.map Prod.fst) :
    (other.setAll front).get? name = (scope.setAll front).get? name := by
  rw [get?_setAll, get?_setAll]
  cases bound : latest? name front with
  | some value => rfl
  | none =>
    have notNow := (latest?_eq_none_iff name front).mp bound
    rw [Option.none_or, Option.none_or]
    refine agree name ?_
    rw [List.map_append, List.mem_append]
    exact not_or.mpr ⟨notNow, notLater⟩

/-- What holds of the bindings before and of those that are set holds of all. -/
theorem forall_mem_setAll {scope : Variables} {values : List (Text × Value)}
    {holds : Text × Value → Prop} (before : ∀ binding ∈ scope.bindings, holds binding)
    (later : ∀ binding ∈ values, holds binding) :
    ∀ binding ∈ (scope.setAll values).bindings, holds binding := by
  induction values generalizing scope with
  | nil => exact before
  | cons first others ih =>
    rw [List.forall_mem_cons] at later
    refine ih ?_ later.2
    intro binding isIn
    rcases (scope.mem_bindings_set _ _ binding).mp isIn with rfl | ⟨isIn, -⟩
    · exact later.1
    · exact before binding isIn

end Variables

end Worksheet

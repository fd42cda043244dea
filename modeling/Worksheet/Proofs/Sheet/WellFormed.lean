/-
**Well-formed variables.**

What a line stores is a name with a finite number or with a date that exists. So the variables of a
sheet are well formed however many documents have run on it, if they were when the session began.

* `Variables.WellFormed`: proper names, none of them twice, for finite numbers and existing dates;
* `isProper_of_binding?` is what one line stores, `isProper_of_mem_stored` what a run does;
* `wellFormed_runAll`: the variables of a session that begins with a new sheet are well formed.
-/

import Worksheet.Proofs.Expr.Finite
import Worksheet.Proofs.Line
import Worksheet.Proofs.Sheet.Session

namespace Worksheet

/-- A finite number, or a day that exists in a year that dates reach. -/
def Value.IsProper : Value → Prop
  | number x => x.isFinite = true
  | date day => IsDate day.year day.month day.day

/-- Proper names, none of them twice, with proper values. -/
structure Variables.WellFormed (scope : Variables) : Prop where
  names : ∀ name ∈ scope.names, Text.isName name = true
  distinct : scope.names.Nodup
  values : ∀ binding ∈ scope.bindings, binding.2.IsProper

/-- A binding of a proper name to a proper value. -/
def Bindings.IsProper (binding : Text × Value) : Prop :=
  Text.isName binding.1 = true ∧ binding.2.IsProper

theorem Variables.wellFormed_iff (scope : Variables) :
    scope.WellFormed ↔ ∀ binding ∈ scope.bindings, Bindings.IsProper binding := by
  constructor
  · intro sound binding isIn
    exact ⟨sound.names _ (List.mem_map_of_mem isIn), sound.values binding isIn⟩
  · intro proper
    refine ⟨fun name isName => ?_, scope.distinct, fun binding isIn => (proper binding isIn).2⟩
    obtain ⟨binding, isIn, rfl⟩ := List.mem_map.mp isName
    exact (proper binding isIn).1

theorem Variables.wellFormed_empty : Variables.empty.WellFormed := by
  rw [wellFormed_iff]
  intro binding isIn
  cases isIn

theorem Variables.wellFormed_ofToday (today : Date) : (Variables.ofToday today).WellFormed := by
  rw [wellFormed_iff]
  intro binding isIn
  obtain rfl := List.mem_singleton.mp isIn
  exact ⟨rfl, today.exists_day⟩

namespace Line

/-- What an assignment assigns is a name. -/
theorem isName_of_assignment?_eq_some {text name formula : Text}
    (assigns : assignment? text = some (name, formula)) : Text.isName name = true := by
  obtain ⟨-, parts, -, rfl, -⟩ := (assignment?_eq_some_iff text name formula).mp assigns
  exact parts.isName

theorem isName_of_target?_eq_some {text name : Text}
    (assigns : (ofText text).target? = some name) : Text.isName name = true := by
  unfold ofText at assigns
  split at assigns
  · cases assigns
  · split at assigns
    · cases assigns
    · split at assigns
      next found formula assigned =>
        obtain rfl : found = name := Option.some.inj assigns
        exact isName_of_assignment?_eq_some assigned
      next => split at assigns <;> cases assigns

end Line

namespace Sheet

variable (scope : Variables)

/-! ### What is stored -/

/-- The value that an assignment stores is proper. -/
theorem isProper_of_assigned? {formula : Text} {value : Value}
    (assigned : assigned? scope formula = some value) : value.IsProper := by
  unfold assigned? at assigned
  split at assigned
  next day _ =>
    cases assigned
    exact day.exists_day
  next =>
    split at assigned
    next x evaluates =>
      cases assigned
      exact Variables.isFinite_of_evaluate evaluates
    next => cases assigned

/-- What a line stores is a proper value for a proper name. -/
theorem isProper_of_binding? {text : Text} {binding : Text × Value}
    (bound : AnnotatedLine.binding? ⟨text, (interpret scope text).1⟩ = some binding) :
    Bindings.IsProper binding := by
  obtain ⟨assigns, shown⟩ := (AnnotatedLine.binding?_eq_some_iff _ _ _).mp bound
  refine ⟨Line.isName_of_target?_eq_some assigns, ?_⟩
  rcases interpret_cases scope text with ⟨name, formula, value, -, assigned, stores⟩ |
    ⟨notStored, -⟩
  · dsimp only at shown
    rw [stores] at shown
    cases shown
    exact isProper_of_assigned? scope assigned
  · exact absurd shown (notStored _)

/-- What a run stores are proper values for proper names. -/
theorem isProper_of_mem_stored (lines : List Text) :
    ∀ binding ∈ stored (runLines scope lines).1, Bindings.IsProper binding := by
  intro binding isIn
  induction lines generalizing scope with
  | nil => cases isIn
  | cons text others ih =>
    rw [runLines_cons, stored_cons, List.mem_append, Option.mem_toList] at isIn
    rcases isIn with now | later
    · exact isProper_of_binding? scope now
    · exact ih _ later

/-- **A session keeps its variables sound.** Whatever documents run on a sheet without variables or
on a new sheet, its variables have proper names, none of them twice, and hold finite numbers and
dates that exist. -/
theorem wellFormed_runAll {start : Variables}
    (fresh : start = .empty ∨ ∃ today, start = .ofToday today) (documents : List Text) :
    (runAll start documents).2.WellFormed := by
  have before : start.WellFormed := by
    rcases fresh with rfl | ⟨today, rfl⟩
    · exact Variables.wellFormed_empty
    · exact Variables.wellFormed_ofToday today
  have stored := isProper_of_mem_stored start (documents.flatMap Text.lines)
  rw [← runAll_eq] at stored
  rw [runAll_snd, Variables.wellFormed_iff]
  exact Variables.forall_mem_setAll ((Variables.wellFormed_iff start).mp before) stored

/-- The last day of the year 2024. -/
def newYearsEve : Date :=
  ⟨2024, 12, 31, by decide⟩

/-- Documents that store a date, a number and a sign in front of one, and an infinity in vain. -/
def newYearDocuments : List Text :=
  ["start = 2024-12-31 + 1 day\ndebt = -25".toList, "_x1 = -debt\nstart = 1 / 0\n2x = 3".toList]

/-- The documents on a sheet of New Year's Eve. -/
theorem wellFormed_runAll_newYear :
    (runAll (Variables.ofToday newYearsEve) newYearDocuments).2.names =
        ["today".toList, "start".toList, "debt".toList, "_x1".toList] ∧
      (runAll (Variables.ofToday newYearsEve) newYearDocuments).2.WellFormed :=
  ⟨by decide +kernel, wellFormed_runAll (Or.inr ⟨newYearsEve, rfl⟩) newYearDocuments⟩

end Sheet

end Worksheet

/-
**What a line reads and what it stores.**

A line looks at its variables only to find the words of its formula, and it changes them only if it
is an assignment that shows the value it stores. So what a run does to its variables can be read off
the annotated lines it leaves.

* `Line.reads` and `Line.target?` are the names that a line reads and the one that it assigns;
* `interpret_cases` is all that a line can do, and `interpret_congr` what its result depends on;
* `AnnotatedLine.binding?` is what a line has stored, as its annotation shows it;
* `runLines_snd`: a run sets what its lines show to be stored, one after the other.
-/

import Worksheet.Proofs.Formula.Words
import Worksheet.Proofs.Variables
import Worksheet.Sheet

namespace Worksheet

namespace Line

/-- The name that a line assigns. -/
def target? : Line → Option Text
  | assignment name _ => some name
  | blank | conversion _ | calculation _ | note => none

/-- The names that the formula of a line reads, once percentages are spelled out. -/
def reads : Line → List Text
  | assignment _ formula | calculation formula => Text.words (spellOutPercentages formula)
  | blank | conversion _ | note => []

end Line

namespace AnnotatedLine

/-- What a line has stored: the name that it assigns, with the value that its annotation shows. -/
def binding? (line : AnnotatedLine) : Option (Text × Value) :=
  match (Line.ofText line.text).target?, line.result with
  | some name, some (.stored value) => some (name, value)
  | _, _ => none

theorem binding?_eq_some_iff (line : AnnotatedLine) (name : Text) (value : Value) :
    line.binding? = some (name, value) ↔
      (Line.ofText line.text).target? = some name ∧ line.result = some (.stored value) := by
  unfold binding?
  constructor
  · intro bound
    split at bound
    next assigned shown =>
      cases bound
      exact ⟨assigned, shown⟩
    next => cases bound
  · rintro ⟨assigned, shown⟩
    rw [assigned, shown]

/-- A line that shows no stored value has stored nothing. -/
theorem binding?_eq_none {line : AnnotatedLine}
    (notStored : ∀ value, line.result ≠ some (.stored value)) : line.binding? = none := by
  rw [Option.eq_none_iff_forall_ne_some]
  rintro ⟨name, value⟩ bound
  exact notStored value ((binding?_eq_some_iff line name value).mp bound).2

end AnnotatedLine

namespace Sheet

variable (scope : Variables)

/-! ### One line -/

/-- **All that a line can do**: an assignment with a value stores and shows it; any other line shows
no stored value and leaves the variables as they are. -/
theorem interpret_cases (text : Text) :
    (∃ name formula value, Line.ofText text = .assignment name formula ∧
      assigned? scope formula = some value ∧
      interpret scope text = (some (.stored value), scope.set name value)) ∨
    (∀ value, (interpret scope text).1 ≠ some (.stored value)) ∧
      (interpret scope text).2 = scope := by
  unfold interpret
  cases kind : Line.ofText text with
  | blank => simp
  | note => simp
  | conversion request => cases answered : request.answer <;> simp [answered]
  | calculation formula => cases evaluated : scope.evaluate formula <;> simp [evaluated]
  | assignment name formula =>
    cases assigned : assigned? scope formula with
    | none => simp [assigned]
    | some value => exact Or.inl ⟨name, formula, value, rfl, assigned, by simp [assigned]⟩

/-- A line changes the variables by what its annotation shows to be stored. -/
theorem interpret_snd (text : Text) :
    (interpret scope text).2 =
      scope.setAll (AnnotatedLine.binding? ⟨text, (interpret scope text).1⟩).toList := by
  rcases interpret_cases scope text with ⟨name, formula, value, kind, -, stores⟩ |
    ⟨notStored, same⟩
  · have bound : AnnotatedLine.binding? ⟨text, some (.stored value)⟩ = some (name, value) := by
      rw [AnnotatedLine.binding?_eq_some_iff, kind]
      exact ⟨rfl, rfl⟩
    rw [stores, bound]
    rfl
  · rw [AnnotatedLine.binding?_eq_none notStored, same]
    rfl

/-- The result of a line depends on the values of the names that it reads, and on no other. -/
theorem interpret_congr {scope other : Variables} {text : Text}
    (agree : ∀ name ∈ (Line.ofText text).reads, other.get? name = scope.get? name) :
    (interpret other text).1 = (interpret scope text).1 := by
  unfold interpret
  cases kind : Line.ofText text with
  | blank => rfl
  | note => rfl
  | conversion request => cases answered : request.answer <;> simp [answered]
  | calculation formula =>
    rw [kind] at agree
    dsimp only
    rw [Variables.evaluate_congr agree]
    cases scope.evaluate formula <;> simp
  | assignment name formula =>
    rw [kind] at agree
    have assigned : assigned? other formula = assigned? scope formula := by
      unfold assigned?
      rw [Variables.evaluate_congr agree]
    dsimp only
    rw [assigned]
    cases assigned? scope formula <;> simp

/-! ### Many lines -/

/-- The bindings that lines show to be stored, in their order. -/
def stored (lines : List AnnotatedLine) : List (Text × Value) :=
  lines.filterMap AnnotatedLine.binding?

theorem stored_cons (line : AnnotatedLine) (others : List AnnotatedLine) :
    stored (line :: others) = line.binding?.toList ++ stored others := by
  unfold stored
  rw [List.filterMap_cons]
  cases line.binding? <;> rfl

@[simp] theorem runLines_nil : runLines scope [] = ([], scope) :=
  rfl

theorem runLines_cons (text : Text) (others : List Text) :
    runLines scope (text :: others) =
      (⟨text, (interpret scope text).1⟩ :: (runLines (interpret scope text).2 others).1,
        (runLines (interpret scope text).2 others).2) :=
  rfl

/-- A run can be cut between two lines. -/
theorem runLines_append (front back : List Text) :
    runLines scope (front ++ back) =
      ((runLines scope front).1 ++ (runLines (runLines scope front).2 back).1,
        (runLines (runLines scope front).2 back).2) := by
  induction front generalizing scope with
  | nil => rfl
  | cons text others ih => rw [List.cons_append, runLines_cons, ih, runLines_cons, List.cons_append]

/-- A run keeps the texts of its lines. -/
theorem map_text_runLines (lines : List Text) :
    (runLines scope lines).1.map AnnotatedLine.text = lines := by
  induction lines generalizing scope with
  | nil => rfl
  | cons text others ih => rw [runLines_cons, List.map_cons, ih]

/-- **A run changes the variables by what its lines show to be stored**, one after the other. -/
theorem runLines_snd (lines : List Text) :
    (runLines scope lines).2 = scope.setAll (stored (runLines scope lines).1) := by
  induction lines generalizing scope with
  | nil => rfl
  | cons text others ih =>
    rw [runLines_cons, stored_cons, Variables.setAll_append, ← interpret_snd, ih]

/-- A name is stored only by lines that assign it. -/
theorem exists_target_of_mem_stored {lines : List Text} {name : Text}
    (isStored : name ∈ (stored (runLines scope lines).1).map Prod.fst) :
    ∃ text ∈ lines, (Line.ofText text).target? = some name := by
  obtain ⟨⟨_, value⟩, isIn, rfl⟩ := List.mem_map.mp isStored
  obtain ⟨line, isLine, bound⟩ := List.mem_filterMap.mp isIn
  have assigns := ((line.binding?_eq_some_iff _ value).mp bound).1
  refine ⟨line.text, ?_, assigns⟩
  rw [← map_text_runLines scope lines]
  exact List.mem_map_of_mem isLine

end Sheet

end Worksheet

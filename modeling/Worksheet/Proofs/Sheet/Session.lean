/-
**What a session remembers.**

A session runs documents one after the other with the same variables. For the variables it is one
long run of all their lines, so they can be read off the annotated lines of the whole session: a
name has the value that the last line storing it has shown, and names stand in the order in which
they were first stored.

* `Sheet.runAll` is a session, and `runAll_eq` makes one run of it;
* `runAll_snd`: a session sets what its lines show to be stored;
* `runAll_remembers`: values and order of the variables behind a session.
-/

import Worksheet.Proofs.Sheet.Run

namespace Worksheet

namespace Sheet

variable (scope : Variables)

/-- A line that shows no stored value leaves the variables as they are. -/
theorem interpret_snd_of_not_stored {text : Text}
    (notStored : ∀ value, (interpret scope text).1 ≠ some (.stored value)) :
    (interpret scope text).2 = scope := by
  rcases interpret_cases scope text with ⟨name, formula, value, -, -, stores⟩ | ⟨-, same⟩
  · exact absurd (congrArg Prod.fst stores) (notStored value)
  · exact same

/-- Runs documents one after the other, each with the variables that those before it have left. -/
def runAll (scope : Variables) : (documents : List Text) → List (List AnnotatedLine) × Variables
  | [] => ([], scope)
  | document :: others =>
    let (annotated, scope) := run scope document
    let (later, scope) := runAll scope others
    (annotated :: later, scope)

/-- A session is the run of all its lines. -/
theorem runAll_eq (documents : List Text) :
    ((runAll scope documents).1.flatten, (runAll scope documents).2) =
      runLines scope (documents.flatMap Text.lines) := by
  induction documents generalizing scope with
  | nil => rfl
  | cons document others ih =>
    rw [List.flatMap_cons, runLines_append, ← ih]
    rfl

/-- A session changes the variables by what its lines show to be stored. -/
theorem runAll_snd (documents : List Text) :
    (runAll scope documents).2 = scope.setAll (stored (runAll scope documents).1.flatten) := by
  have oneRun := runLines_snd scope (documents.flatMap Text.lines)
  rw [← runAll_eq] at oneRun
  exact oneRun

/-- **What a session remembers.** Behind a session a name has the value shown by the last line that
has stored it, or the value it had before if there is no such line. The names known before keep
their places, and the others follow in the order in which they were first stored, each once. No line
but one that shows a stored value changes anything. -/
theorem runAll_remembers (documents : List Text) :
    (∀ name, (runAll scope documents).2.get? name =
      (Bindings.latest? name (stored (runAll scope documents).1.flatten)).or (scope.get? name)) ∧
    (runAll scope documents).2.names = scope.names ++
      (((stored (runAll scope documents).1.flatten).map Prod.fst).filter
        (· ∉ scope.names)).eraseDups ∧
    (runAll scope documents).2.names.Nodup ∧
    ∀ before text, (∀ value, (interpret before text).1 ≠ some (.stored value)) →
      (interpret before text).2 = before := by
  refine ⟨fun name => ?_, ?_, Variables.distinct _, fun before text notStored => ?_⟩
  · rw [runAll_snd, Variables.get?_setAll]
  · rw [runAll_snd, Variables.names_setAll]
  · exact interpret_snd_of_not_stored before notStored

/-- Two documents of a session: the first one assigns a name, the second time in vain, and the second
one reads it and assigns it again. -/
def priceDocuments : List Text :=
  ["price = 3\nprice = 1 / 0\nrate".toList, "total = price + rate\nprice = 5\nrate = 2".toList]

/-- A sheet that knows a rate runs the two documents. -/
theorem runAll_remembers_prices :
    (runAll (Variables.empty.set "rate".toList (.number 7)) priceDocuments).2.names =
        ["rate".toList, "price".toList, "total".toList] ∧
      (((runAll (Variables.empty.set "rate".toList (.number 7)) priceDocuments).2.get?
        "price".toList).map Value.toText = some "5".toList) ∧
      (interpret (Variables.empty.set "price".toList (.number 3)) "price = 1 / 0".toList).2 =
        Variables.empty.set "price".toList (.number 3) := by
  have remembers :=
    runAll_remembers (Variables.empty.set "rate".toList (.number 7)) priceDocuments
  have fails : (interpret (Variables.empty.set "price".toList (.number 3))
      "price = 1 / 0".toList).1.isNone = true := by decide +kernel
  refine ⟨?_, ?_, remembers.2.2.2 _ _ fun value stored => ?_⟩
  · rw [remembers.2.1]
    decide +kernel
  · rw [remembers.1]
    decide +kernel
  · rw [stored] at fails
    cases fails

end Sheet

end Worksheet

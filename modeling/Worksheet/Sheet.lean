/-
**Running a sheet.**

The lines of a document are interpreted from top to bottom. What an assignment stores is seen by
every line behind it, and by every document that runs later with the same variables; no other line
changes a variable. An assignment whose formula has no value leaves its name as it was and shows
nothing.

* `Sheet.interpret` is the meaning of one line;
* `Sheet.run` runs a document.
-/

import Worksheet.Result
import Worksheet.Calendar.DateShift
import Worksheet.Formula
import Worksheet.Line
import Worksheet.Text.Lines

namespace Worksheet

namespace Sheet

/-- The value that an assignment stores: a moved date if its formula holds one, else the number. -/
def assigned? (scope : Variables) (formula : Text) : Option Value :=
  match shiftedDate? formula with
  | some date => some (.date date)
  | none =>
    match scope.evaluate formula with
    | .ok x => some (.number x)
    | .error _ => none

/-- The result of a line, and the variables behind it. -/
def interpret (scope : Variables) (text : Text) : Option Result × Variables :=
  match Line.ofText text with
  | .blank | .note => (none, scope)
  | .conversion request =>
    match request.answer with
    | .ok amount => (some (.converted amount), scope)
    | .error failure => (some (.unsupported failure), scope)
  | .assignment name formula =>
    match assigned? scope formula with
    | some value => (some (.stored value), scope.set name value)
    | none => (none, scope)
  | .calculation formula =>
    match scope.evaluate formula with
    | .ok x => (some (.computed x), scope)
    | .error _ => (some .failed, scope)

/-- Interprets lines one after the other. -/
def runLines (scope : Variables) : List Text → List AnnotatedLine × Variables
  | [] => ([], scope)
  | text :: others =>
    let (result, scope) := interpret scope text
    let (annotated, scope) := runLines scope others
    (⟨text, result⟩ :: annotated, scope)

/-- Interprets the lines of a document. -/
def run (scope : Variables) (document : Text) : List AnnotatedLine × Variables :=
  runLines scope (Text.lines document)

end Sheet

end Worksheet

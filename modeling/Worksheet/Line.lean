/-
**The kinds of lines.**

A line of a sheet is blank, a conversion, an assignment, a calculation or a note, tried in this
order. An assignment is a name, an equals sign and something on its right; a calculation ends with
an equals sign; a note is everything else.

* `Line` is a line with what its kind makes of it;
* `Line.ofText` recognises the kind.
-/

import Worksheet.Conversion

namespace Worksheet

/-- What a line of a sheet is. -/
inductive Line where
  /-- Nothing but white space. -/
  | blank
  /-- An amount, a unit, `to` and a unit. -/
  | conversion (request : ConversionRequest)
  /-- A name, an equals sign and the formula for its value. -/
  | assignment (name formula : Text)
  /-- A formula in front of an equals sign at the end of the line. -/
  | calculation (formula : Text)
  /-- Text without a result. -/
  | note

namespace Line

/-- Recognises a name, an equals sign and a formula, with white space between them and in front. The
formula starts with a character that is not white space and does not go over a line feed. -/
def assignment? (text : Text) : Option (Text × Text) :=
  let start := Text.trimStart text
  let name := start.takeWhile Text.isWordPart
  match Text.trimStart (start.dropWhile Text.isWordPart) with
  | '=' :: behind =>
    let formula := Text.trimStart behind
    if Text.isName name && !formula.isEmpty && !formula.contains '\n' then some (name, formula)
    else none
  | _ => none

/-- Recognises an equals sign at the end, white space apart, and returns all that stands before. -/
def calculation? (text : Text) : Option Text :=
  match text.reverse.dropWhile Text.isBlank with
  | '=' :: before => some before.reverse
  | _ => none

/-- Recognises the kind of a line. -/
def ofText (text : Text) : Line :=
  if text.all Text.isBlank then blank
  else match ConversionRequest.ofText? text with
    | some request => conversion request
    | none =>
      match assignment? text with
      | some (name, formula) => assignment name formula
      | none =>
        match calculation? text with
        | some formula => calculation formula
        | none => note

/-! ### Values -/

example : assignment? "  _tmp2=3 =".toList = some ("_tmp2".toList, "3 =".toList) := by
  decide +kernel

example : assignment? "2x = 4".toList = none ∧ assignment? "x =".toList = none := by decide +kernel

example : calculation? "total =  ".toList = some "total ".toList := by decide +kernel

end Line

end Worksheet

/-
**Lines that ask for a conversion.**

A line such as `2.5 fl oz to ml` is a numeral and at least three words of ASCII letters, one of
which is `to` with a word on either side. The last such `to` separates the two units. White space
may stand around the parts, and inside a unit, where it counts as part of its name.

* `ConversionRequest.ofText?` recognises such a line;
* `ConversionRequest.answer` is the converted amount, if one category lists both units;
* `UnsupportedConversion` names the two units otherwise.
-/

import Worksheet.Number.Decimal
import Worksheet.Units

namespace Worksheet

/-- An amount, the unit it is in, and the unit it is asked in. -/
structure ConversionRequest where
  amount : Float
  source : Text
  target : Text

/-- Two units that no category lists together. -/
structure UnsupportedConversion where
  source : Text
  target : Text
deriving DecidableEq

namespace UnsupportedConversion

/-- The wording for units that cannot be converted. -/
def message (failure : UnsupportedConversion) : Text :=
  "Error: Conversion from '".toList ++ failure.source ++ "' to '".toList ++ failure.target ++
    "' not supported.".toList

end UnsupportedConversion

namespace ConversionRequest

/-! ### Recognising a line -/

/-- The text cut into its words and the white space between them. -/
def runs (text : Text) : List Text :=
  text.splitBy fun a b => Text.isBlank a == Text.isBlank b

/-- The words of a text that neither starts nor ends with white space, cut at the last `to` that has
words on both sides. -/
def splitAtTo? (words : Text) : Option (Text × Text) :=
  let parts := runs words
  let count := parts.length
  let inner := parts.zipIdx.filter fun (part, i) =>
    2 ≤ i && i + 2 < count && part == "to".toList
  inner.getLast?.map fun (_, i) => ((parts.take (i - 1)).flatten, (parts.drop (i + 2)).flatten)

/-- A character of an amount. -/
def isAmountPart (c : Char) : Bool :=
  c.isDigit || c == '.'

/-- Recognises an amount, and units of ASCII letters and white space with `to` between them. -/
def ofText? (line : Text) : Option ConversionRequest :=
  let line := Text.trim line
  let words := Text.trimStart (line.dropWhile isAmountPart)
  match Decimal.ofText? (line.takeWhile isAmountPart) with
  | none => none
  | some amount =>
    if words.all fun c => c.isAlpha || Text.isBlank c then
      (splitAtTo? words).map fun (source, target) => ⟨amount.toFloat, source, target⟩
    else
      none

/-! ### Converting -/

/-- The amount in base units, and from there in the unit asked for; both units have to be in the
first category that lists the source unit. -/
def answer (request : ConversionRequest) : Except UnsupportedConversion Float :=
  let factors := (Category.ofUnit? request.source).bind fun category =>
    match category.factor? request.source, category.factor? request.target with
    | some source, some target => some (source, target)
    | _, _ => none
  match factors with
  | some (source, target) => .ok (request.amount / source * target)
  | none => .error ⟨request.source, request.target⟩

end ConversionRequest

/-- What a line that asks for a conversion gives, and nothing for any other line. -/
def convert? (line : Text) : Option (Except UnsupportedConversion Float) :=
  (ConversionRequest.ofText? line).map ConversionRequest.answer

/-! ### Values -/

example : ConversionRequest.splitAtTo? "fl oz to to l".toList =
    some ("fl oz to".toList, "l".toList) := by decide +kernel

example : ConversionRequest.splitAtTo? "to to to".toList = some ("to".toList, "to".toList) := by
  decide +kernel

example : (convert? "10 km into m".toList).isNone = true := by decide +kernel

end Worksheet

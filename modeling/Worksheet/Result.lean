/-
**Results beside lines.**

A line with a result shows it beside its text: a converted amount with six places behind an equals
sign, a stored value in brackets, a computed number in full, or what went wrong.

* `Result` is such a result, `Result.toText` its text and `Result.outcome` its kind;
* `AnnotatedLine` is a line with its result, if it has one.
-/

import Worksheet.Conversion
import Worksheet.Number.Places
import Worksheet.Value

namespace Worksheet

/-- Whether a result is a success. -/
inductive Outcome where
  | success
  | error
deriving DecidableEq

namespace Outcome

/-- The word for the kind of a result. -/
def name : Outcome → Text
  | success => "success".toList
  | error => "error".toList

end Outcome

/-- The result of a line. -/
inductive Result where
  /-- The amount that a conversion gives. -/
  | converted (amount : Float)
  /-- The value that an assignment stores. -/
  | stored (value : Value)
  /-- The number that a calculation gives. -/
  | computed (x : Float)
  /-- A conversion between units that cannot be converted. -/
  | unsupported (failure : UnsupportedConversion)
  /-- A calculation without a value. -/
  | failed

namespace Result

/-- The kind of a result. -/
def outcome : Result → Outcome
  | converted _ | stored _ | computed _ => .success
  | unsupported _ | failed => .error

/-- The text of a result. -/
def toText : Result → Text
  | converted amount => "= ".toList ++ sixPlacesText amount
  | stored value => '(' :: value.toText ++ [')']
  | computed x => (Value.number x).toText
  | unsupported failure => failure.message
  | failed => "Error".toList

end Result

/-- A line of a sheet beside its result. -/
structure AnnotatedLine where
  text : Text
  result : Option Result

end Worksheet

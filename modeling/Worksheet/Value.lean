/-
**What a variable holds.**

A variable holds a number or a date. The text of a value is what stands for the variable in an
expression, so a zero has no sign in it.
-/

import Worksheet.Calendar.DateText
import Worksheet.Number.Shortest

namespace Worksheet

/-- The value of a variable. -/
inductive Value where
  | number (x : Float)
  | date (day : Date)

namespace Value

/-- The shortest text of a number, `0` for both zeros, or the text of a date. -/
def toText : Value → Text
  | number x => if x == 0 then ['0'] else shortestText x
  | date day => day.toText

example : (number (-0.0)).toText = "0".toList ∧ (number (-12.5)).toText = "-12.5".toList := by
  decide +kernel

end Value

end Worksheet

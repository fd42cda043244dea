/-
**A character between quotation marks.**

Messages show an offending character in single quotation marks, escaped where it would be misread:
the quotation mark, the backslash and four control characters have escapes of their own, every
other unprintable character is shown by its code point.
-/

import Worksheet.Text.Unprintable
import Worksheet.Text.Basic

namespace Worksheet

namespace Text

/-- The character as it stands between single quotation marks. -/
def escaped (c : Char) : Text :=
  if c == '\x00' then "\\0".toList
  else if c == '\t' then "\\t".toList
  else if c == '\r' then "\\r".toList
  else if c == '\n' then "\\n".toList
  else if c == '\'' then "\\'".toList
  else if c == '\\' then "\\\\".toList
  else if isUnprintable c then "\\u".toList ++ '\x7b' :: Nat.toDigits 16 c.toNat ++ ['\x7d']
  else [c]

/-- The character in single quotation marks. -/
def quoted (c : Char) : Text :=
  '\'' :: escaped c ++ ['\'']

example : quoted 'q' = "'q'".toList ∧ quoted '\'' = "'\\''".toList := by decide +kernel

example : quoted '\u0301' = "'\\u\x7b301\x7d'".toList := by decide +kernel

end Text

end Worksheet

/-
**Text in HTML.**

Five characters have a meaning in HTML and are written as entities; all others stand for
themselves.
-/

import Worksheet.Text.Basic

namespace Worksheet

namespace Html

/-- A character as it is written in HTML. -/
def escapeChar (c : Char) : Text :=
  if c == '&' then "&amp;".toList
  else if c == '<' then "&lt;".toList
  else if c == '>' then "&gt;".toList
  else if c == '"' then "&quot;".toList
  else if c == '\'' then "&#39;".toList
  else [c]

/-- A text as it is written in HTML. -/
def escape (text : Text) : Text :=
  text.flatMap escapeChar

/-- A text inside a `span` element of a class. -/
def span (classes text : Text) : Text :=
  "<span class=\"".toList ++ classes ++ "\">".toList ++ escape text ++ "</span>".toList

example : span "result".toList "a<b".toList =
    "<span class=\"result\">a&lt;b</span>".toList := by decide

end Html

end Worksheet

/-
**Objects in JSON.**

The records that are shown in JSON have fields that hold a string or nothing. They are written
compact, on one line, or indented by two spaces, a field on each line. A string escapes the
quotation mark, the backslash and the control characters below the space; all others stand for
themselves.
-/

import Worksheet.Text.Basic

namespace Worksheet

namespace Json

/-! ### Strings -/

/-- A character as it stands in a string. -/
def escapeChar (c : Char) : Text :=
  if c == '"' then "\\\"".toList
  else if c == '\\' then "\\\\".toList
  else if c == '\x08' then "\\b".toList
  else if c == '\x0C' then "\\f".toList
  else if c == '\n' then "\\n".toList
  else if c == '\r' then "\\r".toList
  else if c == '\t' then "\\t".toList
  else if c.toNat < 0x20 then
    "\\u00".toList ++ [Nat.digitChar (c.toNat / 16), Nat.digitChar (c.toNat % 16)]
  else [c]

/-- A text as a string in quotation marks. -/
def string (text : Text) : Text :=
  '"' :: text.flatMap escapeChar ++ ['"']

/-- A string, or `null` for nothing. -/
def stringOrNull (text : Option Text) : Text :=
  match text with
  | some text => string text
  | none => "null".toList

/-! ### Objects -/

/-- The fields of an object, in order. -/
abbrev Fields := List (Text × Option Text)

/-- An object on one line, without any space. -/
def compact (fields : Fields) : Text :=
  let members := fields.map fun (name, value) => string name ++ ':' :: stringOrNull value
  '\x7b' :: List.intercalate [','] members ++ ['\x7d']

/-- An object as an element of an indented list. -/
def indented (fields : Fields) : Text :=
  let members := fields.map fun (name, value) =>
    "    ".toList ++ string name ++ ": ".toList ++ stringOrNull value
  "  \x7b\n".toList ++ List.intercalate ",\n".toList members ++ "\n  \x7d".toList

/-- A list of objects, indented; an empty list has no lines of its own. -/
def indentedList (objects : List Fields) : Text :=
  match objects with
  | [] => "[]".toList
  | objects =>
    "[\n".toList ++ List.intercalate ",\n".toList (objects.map indented) ++ "\n]".toList

example : string "a\"\\\n\x01\x7f".toList = "\"a\\\"\\\\\\n\\u0001\x7f\"".toList := by decide

example : compact [("text".toList, some ['a']), ("kind".toList, none)] =
    "\x7b\"text\":\"a\",\"kind\":null\x7d".toList := by decide

end Json

end Worksheet

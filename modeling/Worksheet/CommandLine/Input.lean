/-
**Bytes of the input.**

Files and the standard input hold bytes, which are text only if they are UTF-8. The input is cut
into lines before it is decoded, so that a line can be answered before a later one turns out not
to be text. A line ends with a line feed, or with a carriage return and a line feed.

* `Bytes.toText?` decodes bytes;
* `Bytes.lines` cuts them at line feeds, and `Bytes.lineText?` decodes a line without its end.
-/

import Worksheet.Text.Basic

namespace Worksheet

/-- The bytes of a file or of the input. -/
abbrev Bytes := List UInt8

namespace Bytes

/-- The text that bytes encode in UTF-8. -/
def toText? (bytes : Bytes) : Option Text :=
  (String.fromUTF8? ⟨bytes.toArray⟩).map String.toList

/-- Puts a byte in front of the first line. -/
def consFirst (byte : UInt8) : List Bytes → List Bytes
  | [] => [[byte]]
  | first :: others => (byte :: first) :: others

/-- The lines, each with the line feed that ends it; the last one may lack it. -/
def lines (bytes : Bytes) : List Bytes :=
  bytes.foldr (fun byte found => if byte == 10 then [byte] :: found else consFirst byte found) []

/-- The text of a line without its end: a line feed, or a carriage return and a line feed. -/
def lineText? (line : Bytes) : Option Text :=
  (toText? line).map fun text =>
    match text.reverse with
    | '\n' :: '\r' :: before => before.reverse
    | '\n' :: before => before.reverse
    | _ => text

end Bytes

end Worksheet

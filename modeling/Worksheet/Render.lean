/-
**Showing annotated lines.**

A line is shown with its result behind a space: plain, in HTML with the result in a `span`
element, or as a JSON object. A document is shown line by line, so it keeps the lines it has, or
as a JSON list.

* `Format` is one of the three ways;
* `renderLine` shows one line and `render` a document.
-/

import Worksheet.Result
import Worksheet.Render.Html
import Worksheet.Render.Json
import Worksheet.Text.Lines

namespace Worksheet

/-- How lines are shown. -/
inductive Format where
  | plain
  | html
  | json
deriving DecidableEq

namespace Format

/-- The format with a name. -/
def ofName? (name : Text) : Option Format :=
  if name == "plain".toList then some plain
  else if name == "html".toList then some html
  else if name == "json".toList then some json
  else none

end Format

namespace AnnotatedLine

/-- The line and its result as they are. -/
def toPlain (line : AnnotatedLine) : Text :=
  match line.result with
  | some result => line.text ++ ' ' :: result.toText
  | none => line.text

/-- The classes of the element that holds a result. -/
def resultClasses : Outcome → Text
  | .success => "result".toList
  | .error => "result error".toList

/-- The line in HTML, its result in an element of its own. -/
def toHtml (line : AnnotatedLine) : Text :=
  match line.result with
  | some result =>
    Html.escape line.text ++ ' ' ::
      Html.span (resultClasses result.outcome) result.toText
  | none => Html.escape line.text

/-- The fields of the line in JSON. -/
def toFields (line : AnnotatedLine) : Json.Fields :=
  [("text".toList, some line.text),
    ("annotation".toList, line.result.map Result.toText),
    ("kind".toList, line.result.map fun result => result.outcome.name)]

end AnnotatedLine

/-- One line in a format. -/
def renderLine (format : Format) (line : AnnotatedLine) : Text :=
  match format with
  | .plain => line.toPlain
  | .html => line.toHtml
  | .json => Json.compact line.toFields

/-- The lines of a document in a format. -/
def render (format : Format) (lines : List AnnotatedLine) : Text :=
  match format with
  | .plain => Text.unlines (lines.map AnnotatedLine.toPlain)
  | .html => Text.unlines (lines.map AnnotatedLine.toHtml)
  | .json => Json.indentedList (lines.map AnnotatedLine.toFields)

/-- A document is shown line by line, except in JSON. -/
theorem render_eq_unlines {format : Format} (byLine : format ≠ .json)
    (lines : List AnnotatedLine) :
    render format lines = Text.unlines (lines.map (renderLine format)) := by
  cases format with
  | plain => rfl
  | html => rfl
  | json => exact absurd rfl byLine

end Worksheet

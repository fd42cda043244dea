/-
**The lines of a document are the lines of what is shown.**

A document is cut at its line feeds, and what is shown of it is put together with line feeds again.
No line of a document has a line feed in it, and no result brings one in: the texts of values
consist of letters, digits, points and signs, and the units that a failed conversion names are parts
of its line.

* `isTextPart_of_mem_toText`: the characters of the text of a value;
* `ConversionRequest.subset_of_ofText?`: the units of a conversion stand in its line;
* `Sheet.feed_notMem_of_mem_runLines`: lines without line feeds are shown without them;
* `lines_render_run`: what is shown has the lines of the document, one for one.
-/

import Worksheet.Proofs.Conversion.Recognition
import Worksheet.Proofs.Number.DecimalText
import Worksheet.Proofs.Sheet.Run
import Worksheet.Render

namespace Worksheet

/-! ### Values -/

namespace Value

/-- A character that the text of a value may have. -/
def isTextPart (c : Char) : Bool :=
  c.isAlphanum || c == '.' || c == '-' || c == '+'

theorem isTextPart_of_isDigit {c : Char} (digit : c.isDigit = true) : isTextPart c = true := by
  simp [isTextPart, Char.isAlphanum, digit]

end Value

open Value (isTextPart isTextPart_of_isDigit)

theorem Decimal.isTextPart_of_mem_toText (d : Decimal) : ∀ c ∈ d.toText, isTextPart c = true := by
  intro c isIn
  obtain ⟨back, read, -⟩ := d.ofText?_toText
  have numeral : IsNumeral d.toText := by
    rw [← isSome_ofText?_iff, read]
    rfl
  rcases (Token.isNumeralPart_iff c).mp (numeral.1 c isIn) with digit | rfl
  · exact isTextPart_of_isDigit digit
  · rfl

theorem isTextPart_of_mem_signed (negative : Bool) {digits : Text}
    (parts : ∀ c ∈ digits, isTextPart c = true) :
    ∀ c ∈ (if negative then ['-'] else []) ++ digits, isTextPart c = true := by
  rw [List.forall_mem_append]
  refine ⟨List.all_eq_true.mp ?_, parts⟩
  cases negative <;> decide

theorem isTextPart_of_mem_shortestText (x : Float) : ∀ c ∈ shortestText x, isTextPart c = true := by
  unfold shortestText
  split
  next b _ => exact isTextPart_of_mem_signed _ (Decimal.isTextPart_of_mem_toText _)
  next => split_ifs <;> exact List.all_eq_true.mp (by decide)

theorem isTextPart_of_mem_zeroPadded (width n : Nat) :
    ∀ c ∈ Text.zeroPadded width n, isTextPart c = true := fun c isIn =>
  isTextPart_of_isDigit (Decimal.isDigit_zeroPadded width n c isIn)

theorem isTextPart_of_mem_unitsText (places units : Nat) :
    ∀ c ∈ unitsText places units, isTextPart c = true := by
  unfold unitsText
  rw [List.forall_mem_append, List.forall_mem_cons]
  exact ⟨fun c isIn => isTextPart_of_isDigit (Decimal.isDigit_toDigits _ c isIn), rfl,
    isTextPart_of_mem_zeroPadded _ _⟩

theorem isTextPart_of_mem_roundedText (x : Float) : ∀ c ∈ roundedText x, isTextPart c = true := by
  unfold roundedText
  split
  next digits _ =>
    simpa using isTextPart_of_mem_signed (decide (x < 0.0)) (isTextPart_of_mem_unitsText 6 _)
  next =>
    unfold placesText
    split
    next b _ => exact isTextPart_of_mem_signed _ (isTextPart_of_mem_unitsText 6 _)
    next => exact isTextPart_of_mem_shortestText x

theorem dropLast_subset (c : Char) (text : Text) : dropLast c text ⊆ text := by
  intro d isIn
  unfold dropLast at isIn
  rw [List.mem_reverse] at isIn
  exact List.mem_reverse.mp ((List.dropWhile_suffix _).subset isIn)

theorem isTextPart_of_mem_sixPlacesText (x : Float) :
    ∀ c ∈ sixPlacesText x, isTextPart c = true := by
  have parts := isTextPart_of_mem_roundedText x
  unfold sixPlacesText
  dsimp only
  split
  · exact fun c isIn => parts c (dropLast_subset _ _ (dropLast_subset _ _ isIn))
  · exact parts

theorem Date.isTextPart_of_mem_toText (date : Date) : ∀ c ∈ date.toText, isTextPart c = true := by
  have year : ∀ c ∈ Date.yearText date.year, isTextPart c = true := by
    have digits := isTextPart_of_mem_zeroPadded 4 date.year.natAbs
    unfold Date.yearText
    dsimp only
    split_ifs
    · exact List.forall_mem_cons.mpr ⟨rfl, digits⟩
    · exact List.forall_mem_cons.mpr ⟨rfl, digits⟩
    · exact digits
  unfold Date.toText
  rw [List.forall_mem_append, List.forall_mem_append, List.forall_mem_cons, List.forall_mem_cons]
  exact ⟨⟨year, rfl, isTextPart_of_mem_zeroPadded 2 date.month⟩, rfl,
    isTextPart_of_mem_zeroPadded 2 date.day⟩

/-- The text of a value has letters, digits, points and signs in it and nothing else. -/
theorem Value.isTextPart_of_mem_toText (value : Value) :
    ∀ c ∈ value.toText, isTextPart c = true := by
  cases value with
  | date day => exact day.isTextPart_of_mem_toText
  | number x =>
    dsimp only [toText]
    split_ifs
    · exact List.all_eq_true.mp (by decide)
    · exact isTextPart_of_mem_shortestText x

/-! ### Conversions -/

namespace ConversionRequest

/-- The units that a line names are made of characters of the line. -/
theorem subset_of_ofText? {line : Text} {request : ConversionRequest}
    (asks : ofText? line = some request) : request.source ⊆ line ∧ request.target ⊆ line := by
  obtain ⟨amount, phrase, words, written, splits, -⟩ := (ofText?_eq_some_iff line request).mp asks
  obtain ⟨lead, gap, tail, rfl, -⟩ := written
  obtain ⟨before, behind, front, back, rfl, -⟩ := splits
  constructor <;> intro c isIn <;> simp [isIn]

end ConversionRequest

/-! ### Results -/

theorem Line.ofText?_of_conversion {text : Text} {request : ConversionRequest}
    (kind : Line.ofText text = .conversion request) :
    ConversionRequest.ofText? text = some request := by
  unfold Line.ofText at kind
  split at kind
  · cases kind
  · split at kind
    next found asks =>
      cases kind
      exact asks
    next =>
      split at kind
      · cases kind
      · split at kind <;> cases kind

/-- A line names the units that its conversion has failed for. -/
theorem Sheet.subset_of_interpret (scope : Variables) {text : Text}
    {failure : UnsupportedConversion}
    (shows : (interpret scope text).1 = some (.unsupported failure)) :
    failure.source ⊆ text ∧ failure.target ⊆ text := by
  unfold interpret at shows
  cases kind : Line.ofText text with
  | blank => simp [kind] at shows
  | note => simp [kind] at shows
  | calculation formula =>
    cases evaluated : scope.evaluate formula <;> simp [kind, evaluated] at shows
  | assignment name formula =>
    cases assigned : assigned? scope formula <;> simp [kind, assigned] at shows
  | conversion request =>
    cases answered : request.answer with
    | ok amount => simp [kind, answered] at shows
    | error failed =>
      simp only [kind, answered, Option.some.injEq, Result.unsupported.injEq] at shows
      subst shows
      rw [ConversionRequest.eq_of_answer_error answered]
      exact ConversionRequest.subset_of_ofText? (Line.ofText?_of_conversion kind)

/-! ### Line feeds -/

/-- There is no line feed among the parts of the texts of values. -/
theorem feed_notMem_of_isTextPart {text : Text} (parts : ∀ c ∈ text, isTextPart c = true) :
    '\n' ∉ text := fun isFeed => absurd (parts _ isFeed) (by decide)

/-- A result has no line feed in its text, unless a unit that it names has one. -/
theorem Result.feed_notMem_toText {result : Result}
    (units : ∀ failure, result = .unsupported failure →
      '\n' ∉ failure.source ∧ '\n' ∉ failure.target) : '\n' ∉ result.toText := by
  have value (value : Value) : '\n' ∉ value.toText :=
    feed_notMem_of_isTextPart value.isTextPart_of_mem_toText
  cases result with
  | converted amount =>
    have places := feed_notMem_of_isTextPart (isTextPart_of_mem_sixPlacesText amount)
    simpa [toText] using places
  | stored held => simpa [toText] using value held
  | computed x =>
    rw [toText]
    exact value (.number x)
  | unsupported failure =>
    obtain ⟨source, target⟩ := units failure rfl
    unfold toText UnsupportedConversion.message
    simp only [List.mem_append, not_or]
    exact ⟨⟨⟨⟨by decide, source⟩, by decide⟩, target⟩, by decide⟩
  | failed => decide

/-- Text in HTML has no line feed in it that the text does not have. -/
theorem Html.feed_notMem_escape {text : Text} (noFeed : '\n' ∉ text) : '\n' ∉ Html.escape text := by
  unfold escape
  rw [List.mem_flatMap]
  rintro ⟨c, isIn, isFeed⟩
  have different : '\n' ≠ c := fun same => noFeed (same ▸ isIn)
  revert isFeed
  unfold escapeChar
  split_ifs
  all_goals first
    | decide
    | simpa using different

/-- A character is written in a JSON string without a line feed. -/
theorem Json.feed_notMem_escapeChar (c : Char) : '\n' ∉ Json.escapeChar c := by
  have digit : ∀ n < 16, '\n' ≠ Nat.digitChar n := by decide
  by_cases isFeed : c = '\n'
  · subst isFeed
    decide
  · unfold escapeChar
    split_ifs with _ _ _ _ _ _ _ control
    · decide
    · decide
    · decide
    · decide
    · decide
    · decide
    · decide
    · have high := digit (c.toNat / 16) (by omega)
      have low := digit (c.toNat % 16) (by omega)
      simp [high, low]
    · simpa using Ne.symm isFeed

theorem Json.feed_notMem_string (text : Text) : '\n' ∉ Json.string text := by
  have escaped : '\n' ∉ text.flatMap escapeChar := by
    rw [List.mem_flatMap]
    rintro ⟨c, -, isFeed⟩
    exact feed_notMem_escapeChar c isFeed
  simp [string, escaped]

/-- A character that neither the separator nor any of the pieces has is not brought in. -/
theorem Text.notMem_intercalate {c : Char} {separator : Text} (outside : c ∉ separator)
    {pieces : List Text} (inside : ∀ piece ∈ pieces, c ∉ piece) :
    c ∉ List.intercalate separator pieces := by
  unfold List.intercalate
  match pieces with
  | [] => exact List.not_mem_nil
  | [only] => simpa using inside
  | first :: second :: others =>
    rw [List.forall_mem_cons] at inside
    have later := notMem_intercalate outside inside.2
    unfold List.intercalate at later
    rw [List.intersperse_cons_cons, List.flatten_cons, List.flatten_cons, List.mem_append,
      List.mem_append, not_or, not_or]
    exact ⟨inside.1, outside, later⟩

/-- A JSON object without indentation is written on one line. -/
theorem Json.feed_notMem_compact (fields : Json.Fields) : '\n' ∉ Json.compact fields := by
  have value (text : Option Text) : '\n' ∉ stringOrNull text := by
    cases text with
    | none => decide
    | some text => exact feed_notMem_string text
  have comma : '\n' ∉ [','] := by decide
  unfold compact
  dsimp only
  rw [List.cons_append, List.mem_cons, List.mem_append, not_or, not_or]
  refine ⟨by decide, Text.notMem_intercalate comma ?_, by decide⟩
  rw [List.forall_mem_map]
  rintro ⟨name, text⟩ -
  simp [feed_notMem_string, value]

/-- A line without line feeds is shown as one line, except in JSON. -/
theorem feed_notMem_renderLine {format : Format} (byLine : format ≠ .json) {line : AnnotatedLine}
    (text : '\n' ∉ line.text) (result : ∀ result ∈ line.result, '\n' ∉ result.toText) :
    '\n' ∉ renderLine format line := by
  obtain ⟨written, none | shown⟩ := line
  · cases format with
    | plain => exact text
    | html => exact Html.feed_notMem_escape text
    | json => exact absurd rfl byLine
  · have shown := result _ rfl
    cases format with
    | plain => simp [renderLine, AnnotatedLine.toPlain, text, shown]
    | html =>
      have classes (outcome : Outcome) : '\n' ∉ AnnotatedLine.resultClasses outcome := by
        cases outcome <;> decide
      unfold renderLine AnnotatedLine.toHtml Html.span
      simp only [List.mem_append, List.mem_cons, not_or]
      exact ⟨Html.feed_notMem_escape text, by decide,
        ⟨⟨⟨by decide, classes _⟩, by decide⟩, Html.feed_notMem_escape shown⟩, by decide⟩
    | json => exact absurd rfl byLine

namespace Sheet

variable (scope : Variables)

/-- A run keeps line feeds out of what it shows of its lines. -/
theorem feed_notMem_of_mem_runLines {format : Format} (byLine : format ≠ .json)
    {lines : List Text} (noFeed : ∀ text ∈ lines, '\n' ∉ text) :
    ∀ line ∈ (runLines scope lines).1, '\n' ∉ renderLine format line := by
  induction lines generalizing scope with
  | nil =>
    intro line isLine
    cases isLine
  | cons text others ih =>
    rw [List.forall_mem_cons] at noFeed
    rw [runLines_cons, List.forall_mem_cons]
    refine ⟨feed_notMem_renderLine byLine noFeed.1 fun result shows => ?_, ih _ noFeed.2⟩
    refine result.feed_notMem_toText fun failure failed => ?_
    have units := subset_of_interpret scope (failed ▸ shows)
    exact ⟨fun isFeed => noFeed.1 (units.1 isFeed), fun isFeed => noFeed.1 (units.2 isFeed)⟩

/-- **The lines of a document survive.** Put together, the lines of a run are the document again. In
plain text and in HTML, what is shown of the document has the same number of lines, each of them
what is shown of one annotated line. -/
theorem lines_render_run (document : Text) :
    Text.unlines ((run scope document).1.map AnnotatedLine.text) = document ∧
      ∀ format ∈ [Format.plain, Format.html],
        Text.lines (render format (run scope document).1) =
            (run scope document).1.map (renderLine format) ∧
          (Text.lines (render format (run scope document).1)).length =
            (Text.lines document).length := by
  have texts : (run scope document).1.map AnnotatedLine.text = Text.lines document :=
    map_text_runLines scope (Text.lines document)
  have count : (run scope document).1.length = (Text.lines document).length := by
    rw [← texts, List.length_map]
  refine ⟨?_, fun format isFormat => ?_⟩
  · rw [texts, Text.unlines_lines]
  · have byLine : format ≠ .json := by
      rintro rfl
      simp at isFormat
    have nonempty : (run scope document).1.map (renderLine format) ≠ [] := by
      rw [ne_eq, List.map_eq_nil_iff, ← List.length_eq_zero_iff, count, List.length_eq_zero_iff]
      exact Text.lines_ne_nil document
    have noFeed : ∀ piece ∈ (run scope document).1.map (renderLine format), '\n' ∉ piece := by
      rw [List.forall_mem_map]
      exact feed_notMem_of_mem_runLines scope byLine fun line isLine =>
        Text.feed_notMem_of_mem_lines isLine
    have shown := Text.lines_unlines nonempty noFeed
    rw [render_eq_unlines byLine, shown, List.length_map]
    exact ⟨rfl, count⟩

/-- A document with a conversion of a unit that has a line separator and a carriage return in it. -/
def brokenUnits : Text :=
  "10 fl\u2028\roz to l\n\n1 + 1 =".toList

/-- White space in a unit makes no line of its own. -/
theorem lines_render_run_brokenUnits :
    (run .empty brokenUnits).1.map (fun line => line.result.map Result.toText) =
        [some (UnsupportedConversion.message ⟨"fl\u2028\roz".toList, "l".toList⟩), none,
          some "2".toList] ∧
      (Text.lines (render .html (run .empty brokenUnits).1)).length = 3 := by
  have isFormat : Format.html ∈ [Format.plain, Format.html] := by decide
  have count : (Text.lines brokenUnits).length = 3 := by decide +kernel
  exact ⟨by decide +kernel, count ▸ ((lines_render_run .empty brokenUnits).2 .html isFormat).2⟩

end Sheet

end Worksheet

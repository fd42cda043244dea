/-
**The input is answered line by line.**

Every line of the input runs the whole document again, and only the last line of it is shown. The
document is put together with line feeds and cut again, so its last line is the line just read; it
is shown with a result that has no line feed in it, so what is shown is one line. A line that is not
UTF-8 ends the answers, and those before it have been given already.

* `Bytes.readable` are the lines in front of the first one that is no text;
* `Typing.exists_shown`: lines that are entered are shown one for one;
* `respond_input_by_line`: the response of the program to any input.
-/

import Worksheet.Proofs.CommandLine.Typing
import Worksheet.Proofs.Render.LineStructure

namespace Worksheet

namespace Bytes

/-! ### Lines that are text -/

/-- The bytes are UTF-8. -/
def isText (bytes : Bytes) : Bool :=
  (toText? bytes).isSome

/-- The lines of the input in front of the first one that is no text. -/
def readable (input : Bytes) : List Bytes :=
  (lines input).takeWhile isText

/-- The lines that are text are the first lines of an input, which has no others. -/
theorem lines_readable (input : Bytes) : lines (readable input).flatten = readable input :=
  lines_flatten (List.takeWhile_prefix isText)

theorem isText_iff (line : Bytes) : isText line = true ↔ ∃ text, lineText? line = some text := by
  unfold isText lineText?
  rw [← Option.isSome_map, Option.isSome_iff_exists]

end Bytes

open Bytes (isText lineText? readable)

/-- A line without line feeds is shown on one line, in every format. -/
theorem Sheet.feed_notMem_renderLine_interpret (scope : Variables) (format : Format) {text : Text}
    (noFeed : '\n' ∉ text) : '\n' ∉ renderLine format ⟨text, (interpret scope text).1⟩ := by
  by_cases byLine : format = .json
  · subst byLine
    exact Json.feed_notMem_compact _
  · have only : ∀ line ∈ [text], '\n' ∉ line := List.forall_mem_singleton.mpr noFeed
    exact feed_notMem_of_mem_runLines scope byLine only _ List.mem_cons_self

/-- In plain text a line is shown with its own text first. -/
theorem AnnotatedLine.text_prefix_toPlain (line : AnnotatedLine) : line.text <+: line.toPlain := by
  unfold toPlain
  split
  · exact List.prefix_append _ _
  · exact List.prefix_rfl

namespace Typing

/-! ### Lines that are entered -/

/-- **Lines that are entered are shown one for one**, up to the first that is no text: each on one
line, behind what it says itself. -/
theorem exists_shown (format : Format) (typing : Typing) {lines : List Bytes}
    (typed : ∀ text ∈ typing.typed, '\n' ∉ text)
    (whole : ∀ line ∈ lines, ∀ text ∈ lineText? line, '\n' ∉ text) :
    ∃ shown : List AnnotatedLine,
      (lines.takeWhile isText).map lineText? = shown.map (fun line => some line.text) ∧
      (∀ line ∈ shown, '\n' ∉ renderLine format line) ∧
      enterAll format typing lines =
        ⟨shown.flatMap (renderLine format · ++ ['\n']), if lines.all isText then 0 else 1⟩ ∧
      enterAll format typing (lines.takeWhile isText) =
        ⟨shown.flatMap (renderLine format · ++ ['\n']), 0⟩ := by
  induction lines generalizing typing with
  | nil => exact ⟨[], rfl, List.forall_mem_nil _, rfl, rfl⟩
  | cons line others ih =>
    rw [List.forall_mem_cons] at whole
    cases read : lineText? line with
    | none =>
      have noText : isText line = false := by
        rw [← Bool.not_eq_true, Bytes.isText_iff, read]
        rintro ⟨text, ⟨⟩⟩
      refine ⟨[], ?_, List.forall_mem_nil _, ?_, ?_⟩
      · rw [List.takeWhile_cons_of_neg (by rw [noText]; exact Bool.false_ne_true)]
        rfl
      · rw [enterAll, read, List.all_cons, noText]
        rfl
      · rw [List.takeWhile_cons_of_neg (by rw [noText]; exact Bool.false_ne_true)]
        rfl
    | some text =>
      have itself : isText line = true := (Bytes.isText_iff line).mpr ⟨text, read⟩
      have noFeed : '\n' ∉ text := whole.1 text read
      have noFeeds : ∀ earlier ∈ typing.typed.reverse ++ [text], '\n' ∉ earlier := by
        rw [List.forall_mem_append, List.forall_mem_singleton]
        exact ⟨fun earlier isIn => typed earlier (List.mem_reverse.mp isIn), noFeed⟩
      have entered := enter_eq_rerun format noFeeds
      obtain ⟨shown, texts, oneLine, all, first⟩ :=
        ih ⟨text :: typing.typed, (Sheet.interpret typing.rerun text).2⟩
          (List.forall_mem_cons.mpr ⟨noFeed, typed⟩) whole.2
      refine ⟨⟨text, (Sheet.interpret typing.rerun text).1⟩ :: shown, ?_, ?_, ?_, ?_⟩
      · rw [List.takeWhile_cons_of_pos itself, List.map_cons, List.map_cons, texts, read]
      · rw [List.forall_mem_cons]
        exact ⟨Sheet.feed_notMem_renderLine_interpret typing.rerun format noFeed, oneLine⟩
      · rw [enterAll, read]
        dsimp only
        rw [entered, all, List.flatMap_cons, List.all_cons, itself, Bool.true_and]
      · rw [List.takeWhile_cons_of_pos itself, enterAll, read]
        dsimp only
        rw [entered, first, List.flatMap_cons]

end Typing

/-! ### Responses -/

/-- **The input is answered line by line.** Without a path the program shows, for any bytes, one
line for every line of the input in front of the first one that is not UTF-8, each ended by a line
feed; these are the lines that it shows for that part of the input alone. In plain text each of them
starts with the line that it answers. The exit code tells whether there is a line that is not
UTF-8. -/
theorem respond_input_by_line (now : Date) (files : Text → Option Bytes) (input : Bytes)
    {arguments : List Text} {options : Options}
    (asked : Options.ofArguments? arguments = some options) (noPath : options.path? = none) :
    ∃ shown : List Text,
      shown.length = (readable input).length ∧ (∀ piece ∈ shown, '\n' ∉ piece) ∧
      respond arguments now files input =
        ⟨shown.flatMap (· ++ ['\n']), if input.lines.all isText then 0 else 1⟩ ∧
      respond arguments now files (readable input).flatten =
        ⟨shown.flatMap (· ++ ['\n']), 0⟩ ∧
      (options.format = .plain → List.Forall₂
        (fun line piece => ∃ text, lineText? line = some text ∧ text <+: piece)
        (readable input) shown) := by
  have answered (input : Bytes) : respond arguments now files input =
      Typing.enterAll options.format { scope := .ofToday (options.today?.getD now) }
        input.lines := by
    unfold respond
    rw [asked]
    dsimp only
    rw [noPath]
    rfl
  have noFeeds : ∀ line ∈ input.lines, ∀ text ∈ lineText? line, '\n' ∉ text :=
    fun line isLine text read => Bytes.feed_notMem_of_lineText? isLine read
  obtain ⟨shown, texts, oneLine, all, first⟩ := Typing.exists_shown options.format
    { scope := .ofToday (options.today?.getD now) } nofun noFeeds
  refine ⟨shown.map (renderLine options.format), ?_, ?_, ?_, ?_, ?_⟩
  · have count := congrArg List.length texts
    rw [List.length_map, List.length_map] at count
    rw [List.length_map, readable, count]
  · exact List.forall_mem_map.mpr oneLine
  · rw [answered, all, List.flatMap_map]
  · rw [answered, Bytes.lines_readable, readable, first, List.flatMap_map]
  · intro isPlain
    rw [← List.forall₂_eq_eq_eq] at texts
    rw [isPlain, List.forall₂_map_right_iff]
    have lineByLine := List.forall₂_map_left_iff.mp (List.forall₂_map_right_iff.mp texts)
    exact lineByLine.imp fun line last read => ⟨last.text, read, last.text_prefix_toPlain⟩

/-- Four lines of input: one that ends with a carriage return and a line feed, one with a line feed,
one that is not UTF-8, and one without an end. -/
def brokenInput : Bytes :=
  Bytes.ofText "price = 2\r\nprice * 3 =\n".toList ++ [0xFF, 10] ++ Bytes.ofText "price".toList

/-- Two lines are answered, and the third one ends the program. -/
theorem respond_brokenInput :
    Options.ofArguments? ["--today=2024-01-31".toList] =
        some ⟨none, .plain, some ⟨2024, 1, 31, by decide⟩, false⟩ ∧
      ∃ shown : List Text, shown.length = 2 ∧
        respond ["--today=2024-01-31".toList] ⟨2025, 1, 1, by decide⟩ (fun _ => none) brokenInput =
          ⟨shown.flatMap (· ++ ['\n']), 1⟩ := by
  have asked : Options.ofArguments? ["--today=2024-01-31".toList] =
      some ⟨none, .plain, some ⟨2024, 1, 31, by decide⟩, false⟩ := by rfl
  have count : (readable brokenInput).length = 2 := by decide +kernel
  have broken : brokenInput.lines.all isText = false := by decide +kernel
  obtain ⟨shown, length, -, response, -⟩ := respond_input_by_line ⟨2025, 1, 1, by decide⟩
    (fun _ => none) brokenInput asked rfl
  rw [broken, if_neg Bool.false_ne_true] at response
  exact ⟨asked, shown, length.trans count, response⟩

end Worksheet

/-
**The command line.**

Without a path the input is answered line by line: each line extends the document, which runs
again as a whole, and the last line is shown. With a path the document runs once and is shown as a
whole; a watched one runs again after every change, with an empty line behind each run. Bytes that
are not UTF-8 end the answer with a failure; what was shown before stays.

* `answerInput` answers the input and `answerDocument` a document;
* `respond` is the response to arguments, files and input.
-/

import Worksheet.CommandLine.Input
import Worksheet.CommandLine.Options
import Worksheet.Sheet

namespace Worksheet

/-- What the program writes, and the code that it ends with. -/
structure Response where
  output : Text
  exitCode : Nat
deriving DecidableEq

namespace Response

/-- The response to bytes that cannot be read. -/
def unreadable : Response := ⟨[], 1⟩

/-- The response to arguments that make no sense. -/
def badArguments : Response := ⟨[], 2⟩

end Response

/-- The lines typed so far, the latest first, and the variables that they left. -/
structure Typing where
  typed : List Text := []
  scope : Variables

namespace Typing

/-- Types one line more: the document grown by it runs again, and its last line is shown. -/
def enter (format : Format) (typing : Typing) (line : Text) : Text × Typing :=
  let typed := line :: typing.typed
  let (annotated, scope) := Sheet.run typing.scope (Text.unlines typed.reverse)
  let shown := match annotated.getLast? with
    | some last => renderLine format last ++ ['\n']
    | none => []
  (shown, { typed, scope })

/-- Types lines one after the other, up to the first that is not UTF-8. -/
def enterAll (format : Format) (typing : Typing) : (lines : List Bytes) → Response
  | [] => ⟨[], 0⟩
  | line :: others =>
    match line.lineText? with
    | none => .unreadable
    | some text =>
      let (shown, typing) := typing.enter format text
      let later := enterAll format typing others
      { later with output := shown ++ later.output }

end Typing

/-- Answers the input line by line. -/
def answerInput (format : Format) (scope : Variables) (input : Bytes) : Response :=
  Typing.enterAll format { scope } input.lines

/-- How a document is shown: followed by a line feed, and by an empty line if it is watched. -/
def showDocument (options : Options) (lines : List AnnotatedLine) : Text :=
  render options.format lines ++ if options.watch then ['\n', '\n'] else ['\n']

/-- Runs a document and shows it. A document is unreadable if it is missing or not UTF-8; a watched
one is answered here as far as its first run. -/
def answerDocument (options : Options) (scope : Variables) (content : Option Bytes) : Response :=
  match content.bind Bytes.toText? with
  | some document => ⟨showDocument options (Sheet.run scope document).1, 0⟩
  | none => .unreadable

/-- The response to arguments, given the current date, the files that can be read and the input. -/
def respond (arguments : List Text) (now : Date) (files : Text → Option Bytes) (input : Bytes) :
    Response :=
  match Options.ofArguments? arguments with
  | none => .badArguments
  | some options =>
    let scope := Variables.ofToday (options.today?.getD now)
    match options.path? with
    | none => answerInput options.format scope input
    | some path => answerDocument options scope (files path)

end Worksheet

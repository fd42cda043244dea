/-
**The program.**

Reads the arguments, the clock, a file or the standard input, and writes what the command line
module answers. The input is answered as it comes, a line at a time; a watched document is read
again until the program is stopped, and shown whenever its text has changed.
-/

import Std.Time.DateTime.Timestamp
import Worksheet.CommandLine

namespace Worksheet

namespace Program

/-- The number of days from the first day of year 0 to the first day of 1970. -/
def epochDay : Int := yearStart 1970

/-- The current date. -/
def currentDate : IO Date := do
  let now ← Std.Time.Timestamp.now
  match Date.ofDayNumber? (epochDay + now.toDaysSinceUnixEpoch.val) with
  | some date => return date
  | none => throw (IO.userError "the clock is out of range")

/-- The content of a file, if it can be read. -/
def readFile? (path : Text) : IO (Option Bytes) := do
  try
    let content ← IO.FS.readBinFile (String.ofList path)
    return some content.toList
  catch _ =>
    return none

/-- Writes a text at once. -/
def write (text : Text) : IO Unit := do
  let output ← IO.getStdout
  output.putStr (String.ofList text)
  output.flush

/-- Writes a response and returns its exit code. -/
def finish (response : Response) : IO UInt32 := do
  write response.output
  return response.exitCode.toUInt32

/-- Reads bytes up to the end of a line or of the input; `done` is what was read, in reverse. -/
partial def readLine (input : IO.FS.Stream) (done : Bytes) : IO Bytes := do
  let next ← input.read 1
  match next.toList with
  | byte :: _ => if byte == 10 then return (byte :: done).reverse else readLine input (byte :: done)
  | [] => return done.reverse

/-- Answers one line of the input after the other. -/
partial def answerLines (input : IO.FS.Stream) (format : Format) (typing : Typing) : IO UInt32 := do
  match ← readLine input [] with
  | [] => return 0
  | line =>
    match Bytes.lineText? line with
    | none => finish .unreadable
    | some text =>
      let (shown, typing) := typing.enter format text
      write shown
      answerLines input format typing

/-- Runs and shows a document whenever its content differs from the last one. -/
partial def watch (path : Text) (options : Options) (scope : Variables) (last : Bytes) :
    IO UInt32 := do
  IO.sleep 100
  let content := (← readFile? path).getD last
  match Bytes.toText? content with
  | some document =>
    if content == last then watch path options scope last
    else
      let (lines, scope) := Sheet.run scope document
      write (showDocument options lines)
      watch path options scope content
  | none => watch path options scope last

end Program

end Worksheet

open Worksheet in
/-- Runs the program on the arguments of the command line. -/
def main (arguments : List String) : IO UInt32 := do
  match Options.ofArguments? (arguments.map String.toList) with
  | none =>
    IO.eprintln "usage: [--format plain|html|json] [--today YYYY-MM-DD] [--watch] [PATH]"
    Program.finish .badArguments
  | some options =>
    let today ← match options.today? with
      | some today => pure today
      | none => Program.currentDate
    let scope := Variables.ofToday today
    match options.path? with
    | none => Program.answerLines (← IO.getStdin) options.format { scope }
    | some path =>
      let content ← Program.readFile? path
      match options.watch, content.bind Bytes.toText? with
      | true, some document =>
        let (lines, scope) := Sheet.run scope document
        Program.write (showDocument options lines)
        Program.watch path options scope (content.getD [])
      | _, _ => Program.finish (answerDocument options scope content)

/-
**Typing a document and opening it.**

A document can be typed, and then it runs again with every line, over the variables that all the
runs before have left; or it can be opened, and then it runs once. If no formula reads a name that
its own line or a later one assigns, what is shown is the same.

While lines are typed, the variables are always those that a single run of the lines so far leaves:
the line typed last runs behind lines that run again as they have run before.

* `enter_eq_rerun`: a line is shown as it is interpreted behind those typed before it, run again;
* `Typing.UpToDate` is the invariant, `enter_eq` what one line does under it and `enterAll_eq` what
  many lines do;
* `render_append_feed`: a document is shown line by line;
* `respond_typed_eq_respond_document`: both ways of running the program respond with the same.
-/

import Worksheet.CommandLine
import Worksheet.Proofs.CommandLine.Encoding
import Worksheet.Proofs.Sheet.Rerun

namespace Worksheet

open Sheet (InOrder interpret runLines runLines_again runLines_append runLines_cons runLines_nil)

namespace Typing

variable {start : Variables} {typing : Typing}

/-! ### One line -/

/-- The variables behind the lines typed so far when they run again. -/
def rerun (typing : Typing) : Variables :=
  (runLines typing.scope typing.typed.reverse).2

/-- A line is shown as it is interpreted behind the lines typed before it, which run again. -/
theorem enter_eq_rerun (format : Format) {line : Text}
    (noFeed : ∀ text ∈ typing.typed.reverse ++ [line], '\n' ∉ text) :
    typing.enter format line =
      (renderLine format ⟨line, (interpret typing.rerun line).1⟩ ++ ['\n'],
        ⟨line :: typing.typed, (interpret typing.rerun line).2⟩) := by
  have whole : Sheet.run typing.scope (Text.unlines (line :: typing.typed).reverse) =
      ((runLines typing.scope typing.typed.reverse).1 ++ [⟨line, (interpret typing.rerun line).1⟩],
        (interpret typing.rerun line).2) := by
    unfold Sheet.run
    rw [List.reverse_cons, Text.lines_unlines (by simp) noFeed, runLines_append, runLines_cons,
      runLines_nil, rerun]
  unfold enter
  dsimp only
  rw [whole, List.getLast?_concat]

/-- The variables are those that one run of the lines typed so far leaves. -/
def UpToDate (start : Variables) (typing : Typing) : Prop :=
  typing.scope = (runLines start typing.typed.reverse).2

/-- Variables that are up to date stay as they are when the lines run again. -/
theorem rerun_eq (upToDate : typing.UpToDate start) (inOrder : InOrder typing.typed.reverse) :
    typing.rerun = typing.scope := by
  unfold UpToDate at upToDate
  rw [rerun, upToDate, runLines_again start inOrder]

/-- A line is shown as it is interpreted behind the lines typed before it. -/
theorem enter_eq (format : Format) {line : Text} (upToDate : typing.UpToDate start)
    (noFeed : ∀ text ∈ typing.typed.reverse ++ [line], '\n' ∉ text)
    (inOrder : InOrder typing.typed.reverse) :
    typing.enter format line =
      (renderLine format ⟨line, (interpret typing.scope line).1⟩ ++ ['\n'],
        ⟨line :: typing.typed, (interpret typing.scope line).2⟩) := by
  rw [enter_eq_rerun format noFeed, rerun_eq upToDate inOrder]

/-- A line keeps the variables up to date. -/
theorem UpToDate.concat (upToDate : typing.UpToDate start) (line : Text) :
    UpToDate start ⟨line :: typing.typed, (interpret typing.scope line).2⟩ := by
  unfold UpToDate at *
  rw [List.reverse_cons, runLines_append, ← upToDate]
  rfl

/-! ### Many lines -/

/-- **Lines that are typed are shown as one run of them shows them.** -/
theorem enterAll_eq (format : Format) {lines : List Text} (upToDate : typing.UpToDate start)
    (noFeed : ∀ text ∈ typing.typed.reverse ++ lines, '\n' ∉ text)
    (noReturn : ∀ line ∈ lines, line.getLast? ≠ some '\r')
    (inOrder : InOrder (typing.typed.reverse ++ lines)) :
    enterAll format typing (lines.map fun line => Bytes.ofText (line ++ ['\n'])) =
      ⟨(runLines typing.scope lines).1.flatMap (renderLine format · ++ ['\n']), 0⟩ := by
  induction lines generalizing typing with
  | nil => rfl
  | cons line others ih =>
    rw [List.forall_mem_cons] at noReturn
    rw [← List.singleton_append, ← List.append_assoc] at noFeed inOrder
    have typed : typing.typed.reverse ++ [line] = (line :: typing.typed).reverse :=
      List.reverse_cons.symm
    have entered := enter_eq format upToDate
      (fun text isIn => noFeed text (List.mem_append_left others isIn)) inOrder.of_append.of_append
    rw [typed] at noFeed inOrder
    rw [List.map_cons, enterAll, Bytes.lineText?_ofText noReturn.1]
    dsimp only
    rw [entered, ih (upToDate.concat line) noFeed noReturn.2 inOrder, runLines_cons,
      List.flatMap_cons]

end Typing

/-! ### Documents -/

/-- A document is shown line by line, each with a line feed behind it, except in JSON. -/
theorem render_append_feed {format : Format} (byLine : format ≠ .json) {lines : List AnnotatedLine}
    (nonempty : lines ≠ []) :
    render format lines ++ ['\n'] = lines.flatMap (renderLine format · ++ ['\n']) := by
  rw [render_eq_unlines byLine, Text.unlines_append_feed (by simpa using nonempty),
    List.flatMap_map]

/-- **What is typed is answered line by line** with the lines of one run. -/
theorem answerInput_eq (format : Format) (scope : Variables) {lines : List Text}
    (whole : ∀ line ∈ lines, '\n' ∉ line ∧ line.getLast? ≠ some '\r') (inOrder : InOrder lines) :
    answerInput format scope (Bytes.ofText (lines.flatMap (· ++ ['\n']))) =
      ⟨(runLines scope lines).1.flatMap (renderLine format · ++ ['\n']), 0⟩ := by
  have noFeed : ∀ line ∈ lines, '\n' ∉ line := fun line isIn => (whole line isIn).1
  have noReturn : ∀ line ∈ lines, line.getLast? ≠ some '\r' := fun line isIn => (whole line isIn).2
  unfold answerInput
  rw [Bytes.lines_ofText noFeed]
  have upToDate : Typing.UpToDate scope { scope } := rfl
  exact Typing.enterAll_eq format upToDate noFeed noReturn inOrder

/-- **What is opened is answered at once** with the lines of one run, one behind the other. -/
theorem answerDocument_eq {options : Options} (once : options.watch = false)
    (byLine : options.format ≠ .json) (scope : Variables) {lines : List Text}
    (nonempty : lines ≠ []) (noFeed : ∀ line ∈ lines, '\n' ∉ line) :
    answerDocument options scope (some (Bytes.ofText (Text.unlines lines))) =
      ⟨(runLines scope lines).1.flatMap (renderLine options.format · ++ ['\n']), 0⟩ := by
  have shown : (runLines scope lines).1 ≠ [] := by
    intro none
    have texts := Sheet.map_text_runLines scope lines
    rw [none] at texts
    exact nonempty texts.symm
  unfold answerDocument
  rw [Option.bind_some, Bytes.toText?_ofText]
  dsimp only
  unfold showDocument Sheet.run
  rw [once, Text.lines_unlines nonempty noFeed, if_neg Bool.false_ne_true,
    render_append_feed byLine shown]

/-- **Typing a document shows what opening it shows.** Let lines be in order, none of them with a
line feed in it or a carriage return at its end. Then the program that reads them from its input and
the program that opens a document made of them respond with the same, in plain text and in HTML. -/
theorem respond_typed_eq_respond_document (now : Date) {typedArguments openArguments : List Text}
    {path : Text} {format : Format} {today? : Option Date} {files : Text → Option Bytes}
    {lines : List Text} (input : Bytes)
    (typed : Options.ofArguments? typedArguments = some ⟨none, format, today?, false⟩)
    (opened : Options.ofArguments? openArguments = some ⟨some path, format, today?, false⟩)
    (byLine : format ≠ .json) (nonempty : lines ≠ [])
    (whole : ∀ line ∈ lines, '\n' ∉ line ∧ line.getLast? ≠ some '\r')
    (inOrder : InOrder lines) (content : files path = some (Bytes.ofText (Text.unlines lines))) :
    respond typedArguments now files (Bytes.ofText (lines.flatMap (· ++ ['\n']))) =
      respond openArguments now files input := by
  unfold respond
  rw [typed, opened]
  dsimp only
  rw [answerInput_eq format _ whole inOrder, content,
    answerDocument_eq rfl byLine _ nonempty fun line isIn => (whole line isIn).1]

/-- Lines of every kind, with a name that is assigned before it is read. -/
def shoppingLines : List Text :=
  ["price = 2.5".toList, [], "3 < price".toList, "500 g to kg".toList,
    "total = price * 4".toList, "due = 2024-01-31 + 1 month".toList, "total - 1 / 0 =".toList,
    "total =".toList]

/-- The lines typed into the program, and the same lines opened from a file. -/
theorem respond_shoppingLines :
    (∀ line ∈ shoppingLines, '\n' ∉ line ∧ line.getLast? ≠ some '\r') ∧ InOrder shoppingLines ∧
      respond ["--today".toList, "2024-01-31".toList, "-fhtml".toList] ⟨2025, 1, 1, by decide⟩
          (fun _ => some (Bytes.ofText (Text.unlines shoppingLines)))
          (Bytes.ofText (shoppingLines.flatMap (· ++ ['\n']))) =
        respond ["--format=html".toList, "notes".toList, "--today=2024-1-31".toList]
          ⟨2025, 1, 1, by decide⟩
          (fun _ => some (Bytes.ofText (Text.unlines shoppingLines))) [] := by
  have typed : Options.ofArguments?
      ["--today".toList, "2024-01-31".toList, "-fhtml".toList] =
        some ⟨none, .html, some ⟨2024, 1, 31, by decide⟩, false⟩ := by
    rfl
  have opened : Options.ofArguments?
      ["--format=html".toList, "notes".toList, "--today=2024-1-31".toList] =
        some ⟨some "notes".toList, .html, some ⟨2024, 1, 31, by decide⟩, false⟩ := by
    rfl
  have whole : ∀ line ∈ shoppingLines, '\n' ∉ line ∧ line.getLast? ≠ some '\r' := by decide
  have inOrder : InOrder shoppingLines := by decide +kernel
  refine ⟨whole, inOrder, ?_⟩
  exact respond_typed_eq_respond_document _ [] typed opened nofun (List.cons_ne_nil _ _) whole
    inOrder rfl

end Worksheet

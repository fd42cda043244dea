/-
**The arguments of the command line.**

The arguments are an optional path and the options `--format F` (or `-f F`), `--today D` and
`--watch` (or `-w`); an option takes its value from the same argument, behind an equals sign or
directly behind its letter, or from the next one, which must not look like an option. Behind `--`
there are no options. Nothing may be given twice.

* `Argument.readAll?` reads the arguments one after the other;
* `Options.ofArguments?` is what they ask for, if they make sense together.
-/

import Worksheet.Calendar.DateText
import Worksheet.Render

namespace Worksheet

/-! ### Arguments -/

/-- An argument with its value. -/
inductive Argument where
  | path (value : Text)
  | format (value : Text)
  | today (value : Text)
  | watch
deriving DecidableEq

namespace Argument

/-- Whether an argument looks like an option; a single hyphen does not. -/
def looksLikeOption (argument : Text) : Bool :=
  match argument with
  | '-' :: _ :: _ => true
  | _ => false

/-- What an argument asks for by itself. -/
inductive Spelling where
  /-- A complete list of arguments. -/
  | complete (arguments : List Argument)
  /-- Arguments the last of which takes its value from the next argument. -/
  | needsValue (arguments : List Argument) (last : Text → Argument)
  /-- The mark behind which everything is a path. -/
  | endOfOptions
  /-- No argument at all. -/
  | unknown

/-- The letters behind a single hyphen: any number of flags, then possibly an option, whose value is
the rest. -/
def ofLetters (found : List Argument) : (letters : Text) → Spelling
  | [] => .complete found.reverse
  | 'w' :: letters => ofLetters (.watch :: found) letters
  | ['f'] => .needsValue found.reverse .format
  | 'f' :: '=' :: value => .complete (.format value :: found).reverse
  | 'f' :: value => .complete (.format value :: found).reverse
  | _ => .unknown

/-- The words behind two hyphens, with the value behind an equals sign. -/
def ofWords (words : Text) : Spelling :=
  let name := words.takeWhile (· != '=')
  match words.dropWhile (· != '=') with
  | [] =>
    if name == "format".toList then .needsValue [] .format
    else if name == "today".toList then .needsValue [] .today
    else if name == "watch".toList then .complete [.watch]
    else .unknown
  | _ :: value =>
    if name == "format".toList then .complete [.format value]
    else if name == "today".toList then .complete [.today value]
    else .unknown

/-- What an argument asks for. -/
def spelling (argument : Text) : Spelling :=
  match argument with
  | ['-', '-'] => .endOfOptions
  | '-' :: '-' :: words => ofWords words
  | '-' :: letter :: letters => ofLetters [] (letter :: letters)
  | _ => .complete [.path argument]

/-- Reads all arguments; there is nothing to read in an unknown option and in an option without its
value. -/
def readAll? : (arguments : List Text) → Option (List Argument)
  | [] => some []
  | first :: others =>
    match spelling first with
    | .complete found => (readAll? others).map (found ++ ·)
    | .needsValue found last =>
      match others with
      | value :: others =>
        if looksLikeOption value then none
        else (readAll? others).map (found ++ last value :: ·)
      | [] => none
    | .endOfOptions => some (others.map .path)
    | .unknown => none

end Argument

/-! ### Options -/

/-- What the program is asked to do. -/
structure Options where
  /-- The document; without it the input is answered line by line. -/
  path? : Option Text
  format : Format
  /-- The date that `today` stands for, if not the current one. -/
  today? : Option Date
  /-- Run the document again whenever it changes. -/
  watch : Bool

namespace Options

/-- The only element, if there is at most one. -/
def atMostOne? {α : Type} : List α → Option (Option α)
  | [] => some none
  | [only] => some (some only)
  | _ => none

/-- A value that may be missing but not wrong. -/
def checked? {α : Type} (read : Text → Option α) : Option Text → Option (Option α)
  | none => some none
  | some value => (read value).map some

/-- The options that the arguments spell. Each may be given once; a path is not empty, the other
values must be readable, and watching needs a path. -/
def ofArguments? (arguments : List Text) : Option Options := do
  let found ← Argument.readAll? arguments
  let path? ← atMostOne? <| found.filterMap fun
    | .path value => some value
    | _ => none
  let format? ← atMostOne? <| found.filterMap fun
    | .format value => some value
    | _ => none
  let today? ← atMostOne? <| found.filterMap fun
    | .today value => some value
    | _ => none
  let watch? ← atMostOne? <| found.filterMap fun
    | .watch => some ()
    | _ => none
  let format? ← checked? Format.ofName? format?
  let today? ← checked? Date.ofText? today?
  if path? = some [] || (watch?.isSome && path?.isNone) then none
  else some { path?, format := format?.getD .plain, today?, watch := watch?.isSome }

end Options

end Worksheet

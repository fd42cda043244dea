/-
**Evaluating a written formula.**

A formula is a text. Percentages in it are spelled out, then the names of variables are replaced
by the texts of their values, and what results is read and evaluated as an expression. A name is a
maximal run of letters, digits and underscores that does not start with a digit; a run that is not
the name of a variable stays, and what was put in is not looked at again.

* `Variables.substitute` replaces the names;
* `Variables.evaluate` is the value of a formula;
* `FormulaError` is what can go wrong.
-/

import Worksheet.Expr.Eval
import Worksheet.Expr.Parser
import Worksheet.Percent
import Worksheet.Variables

namespace Worksheet

/-! ### Substitution -/

/-- The text cut into maximal runs of characters that words are made of and runs of others. -/
def wordRuns (text : Text) : List Text :=
  text.splitBy fun a b => Text.isWordPart a == Text.isWordPart b

namespace Variables

/-- The text of a variable's value in place of its name; any other run as it stands. -/
def substituteRun (scope : Variables) (run : Text) : Text :=
  if Text.isName run then
    match scope.get? run with
    | some value => value.toText
    | none => run
  else run

/-- The text with the names of variables replaced by their values. -/
def substitute (scope : Variables) (text : Text) : Text :=
  (wordRuns text).flatMap scope.substituteRun

end Variables

/-! ### Evaluation -/

/-- Why a formula has no value. -/
inductive FormulaError where
  /-- The text has a character that no expression holds. -/
  | lexing (cause : LexError)
  /-- The tokens are no expression. -/
  | parsing (cause : ParseError)
  /-- The expression, here with the text it was read from, has no value. -/
  | evaluating (text : Text) (cause : EvalError)
deriving DecidableEq

namespace FormulaError

/-- The wording of a failure. -/
def message : FormulaError → Text
  | lexing cause => "lexing expression: ".toList ++ cause.message
  | parsing cause => "parsing expression: ".toList ++ cause.message
  | evaluating text cause => "evaluating ".toList ++ text ++ ": ".toList ++ cause.message

end FormulaError

namespace Variables

/-- The value of a text without percentages and variables. -/
def evaluateText (text : Text) : Except FormulaError Float :=
  match Token.ofText text with
  | .error cause => .error (.lexing cause)
  | .ok tokens =>
    match Expr.ofTokens tokens with
    | .error cause => .error (.parsing cause)
    | .ok expr =>
      match expr.eval with
      | .error cause => .error (.evaluating text cause)
      | .ok value => .ok value

/-- The value of a formula. -/
def evaluate (scope : Variables) (formula : Text) : Except FormulaError Float :=
  evaluateText (scope.substitute (spellOutPercentages formula))

end Variables

/-! ### Values -/

example : (Variables.empty.set "price".toList (.number 10)).substitute
    "price*price + prices + 2price".toList = "10*10 + prices + 2price".toList := by decide +kernel

example : ((Variables.empty.evaluate "100 + 10%".toList).toOption.map Float.toBits) =
    some (110.0 : Float).toBits := by decide +kernel

end Worksheet

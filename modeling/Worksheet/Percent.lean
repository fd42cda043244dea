/-
**Percentages.**

Three forms of percentage are spelled out before an expression is read, each in a pass of its own
over the whole text: `X % of Y`, then `X + Y%`, then `X - Y%`. The operands are numerals; anything
else is left as it stands and is refused later. A form is looked for at every character, so it may
begin in the middle of a numeral or of a name, and a numeral reaches as far as it can.

* `takeNumeral?` is the longest numeral at the start of a text;
* `PercentForm` is one of the forms, with its spelling;
* `spellOutPercentages` does the three passes.
-/

import Worksheet.Text.Replace

namespace Worksheet

/-! ### Numerals -/

/-- The longest numeral at the start of a text, digits with or without a point in front of the
last of them, and the text behind it. -/
def takeNumeral? (text : Text) : Option (Text × Text) :=
  let whole := text.takeWhile Char.isDigit
  let rest := text.dropWhile Char.isDigit
  let plain := if whole.isEmpty then none else some (whole, rest)
  match rest with
  | '.' :: behind =>
    let fraction := behind.takeWhile Char.isDigit
    if fraction.isEmpty then plain
    else some (whole ++ '.' :: fraction, behind.dropWhile Char.isDigit)
  | _ => plain

/-- The text behind a fixed beginning. -/
def dropExact? (beginning text : Text) : Option Text :=
  if beginning.isPrefixOf text then some (text.drop beginning.length) else none

/-! ### Forms -/

/-- The forms of percentage, in the order of the passes. -/
inductive PercentForm where
  /-- A percentage of a number. -/
  | share
  /-- A number and a percentage more. -/
  | increase
  /-- A number and a percentage less. -/
  | decrease
deriving DecidableEq

namespace PercentForm

/-- The text behind the two operands of the form at the start of a text, with the operands. White
space may stand between the parts, but not before the percent sign of the last two forms. -/
def operands? (form : PercentForm) (text : Text) : Option (Text × Text × Text) := do
  let (first, rest) ← takeNumeral? text
  match form with
  | share =>
    let rest ← dropExact? ['%'] (Text.trimStart rest)
    let rest ← dropExact? "of".toList (Text.trimStart rest)
    let (second, rest) ← takeNumeral? (Text.trimStart rest)
    return (first, second, rest)
  | increase =>
    let rest ← dropExact? ['+'] (Text.trimStart rest)
    let (second, rest) ← takeNumeral? (Text.trimStart rest)
    let rest ← dropExact? ['%'] rest
    return (first, second, rest)
  | decrease =>
    let rest ← dropExact? ['-'] (Text.trimStart rest)
    let (second, rest) ← takeNumeral? (Text.trimStart rest)
    let rest ← dropExact? ['%'] rest
    return (first, second, rest)

/-- The form with its operands, spelled out. -/
def spelledOut (form : PercentForm) (first second : Text) : Text :=
  match form with
  | share => '(' :: first ++ " / 100) * ".toList ++ second
  | increase =>
    '(' :: first ++ ") + ((".toList ++ first ++ ") * (".toList ++ second ++ ") / 100)".toList
  | decrease =>
    '(' :: first ++ ") - ((".toList ++ first ++ ") * (".toList ++ second ++ ") / 100)".toList

/-- The form at the start of a text, and what takes its place. -/
def match? (form : PercentForm) (text : Text) : Option Text.Match :=
  (form.operands? text).map fun (first, second, rest) =>
    ⟨text.length - rest.length, form.spelledOut first second⟩

/-- Spells out one form all over a text. -/
def spellOut (form : PercentForm) (text : Text) : Text :=
  Text.replaceAll form.match? text

end PercentForm

/-- Spells out all percentages whose operands are numerals. -/
def spellOutPercentages (text : Text) : Text :=
  PercentForm.decrease.spellOut (PercentForm.increase.spellOut (PercentForm.share.spellOut text))

/-! ### Values -/

example : spellOutPercentages "12.5%of 8".toList = "(12.5 / 100) * 8".toList := by decide +kernel

example : spellOutPercentages "1 + 5% + 2 - 3%".toList =
    "(1) + ((1) * (5) / 100) + (2) - ((2) * (3) / 100)".toList := by decide +kernel

example : spellOutPercentages "price + 10%".toList = "price + 10%".toList := by decide +kernel

end Worksheet

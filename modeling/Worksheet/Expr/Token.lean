/-
**The tokens of an expression.**

An expression is read as a list of tokens that ends with an end mark: numerals, names, brackets,
commas and the four operators. Digits and points collect into a numeral; a letter or an underscore
starts a name, which digits may continue; white space separates; every other character is refused,
and so is a point that directly follows a name.

* `Token` and `Operator` are what an expression consists of;
* `Token.ofText` reads a text from left to right, keeping the word under construction;
* `LexError` says which character was refused, where, and in the middle of what.
-/

import Worksheet.Text.Quoted

namespace Worksheet

/-- The binary operators. -/
inductive Operator where
  | add
  | sub
  | mul
  | div
deriving DecidableEq

namespace Operator

/-- Multiplication and division bind tighter than addition and subtraction. -/
def precedence : Operator → Nat
  | add | sub => 1
  | mul | div => 2

/-- The character that writes the operator. -/
def symbol : Operator → Char
  | add => '+'
  | sub => '-'
  | mul => '*'
  | div => '/'

/-- The name of the operator in messages. -/
def label : Operator → Text
  | add => "Add".toList
  | sub => "Sub".toList
  | mul => "Mul".toList
  | div => "Div".toList

end Operator

/-- One token of an expression. -/
inductive Token where
  /-- Digits and points, not yet checked to be a numeral. -/
  | number (digits : Text)
  /-- A name, of a variable or of a function. -/
  | name (word : Text)
  | openBracket
  | closeBracket
  | comma
  | operator (op : Operator)
  /-- The mark behind the last token. -/
  | endMark
deriving DecidableEq

namespace Token

/-- The token as messages show it. -/
def label : Token → Text
  | number digits => "Number(\"".toList ++ digits ++ "\")".toList
  | name word => "Identifier(\"".toList ++ word ++ "\")".toList
  | openBracket => "OpenBracket".toList
  | closeBracket => "CloseBracket".toList
  | comma => "Comma".toList
  | operator op => "Op(".toList ++ op.label ++ [')']
  | endMark => "EOF".toList

/-- The text that the token was read from; the end mark has none. -/
def text : Token → Text
  | number digits => digits
  | name word => word
  | openBracket => ['(']
  | closeBracket => [')']
  | comma => [',']
  | operator op => [op.symbol]
  | endMark => []

/-- The token that a punctuation character is by itself. -/
def ofSymbol? (c : Char) : Option Token :=
  match c with
  | '(' => some openBracket
  | ')' => some closeBracket
  | ',' => some comma
  | '+' => some (operator .add)
  | '-' => some (operator .sub)
  | '*' => some (operator .mul)
  | '/' => some (operator .div)
  | _ => none

end Token

/-! ### Reading tokens -/

/-- The word under construction, its characters in reverse. -/
inductive OpenWord where
  | nothing
  | number (collected : Text)
  | name (collected : Text)
deriving DecidableEq

namespace OpenWord

/-- Puts the finished word in front of the tokens found so far, the latest first. -/
def close (word : OpenWord) (found : List Token) : List Token :=
  match word with
  | nothing => found
  | number collected => .number collected.reverse :: found
  | name collected => .name collected.reverse :: found

/-- The word under construction as messages show it. -/
def label : OpenWord → Text
  | nothing => "None".toList
  | number collected => (Token.number collected.reverse).label
  | name collected => (Token.name collected.reverse).label

end OpenWord

/-- A character that no expression can hold at its place. -/
structure LexError where
  /-- The refused character. -/
  unexpected : Char
  /-- What was under construction when it came. -/
  word : OpenWord
  /-- How many characters stand before it. -/
  index : Nat
deriving DecidableEq

namespace LexError

/-- The wording of a refused character. -/
def message (e : LexError) : Text :=
  "unexpected ".toList ++ Text.quoted e.unexpected ++ " in state ".toList ++ e.word.label ++
    " (char ".toList ++ Nat.toDigits 10 e.index ++ [')']

end LexError

namespace Token

/-- A character of a numeral. -/
def isNumeralPart (c : Char) : Bool :=
  c.isDigit || c == '.'

/-- One character more: the word under construction and the tokens found, the latest first, or
`none` for a character that has no place here. -/
def step (word : OpenWord) (found : List Token) (c : Char) : Option (OpenWord × List Token) :=
  match word with
  | .number collected =>
    if isNumeralPart c then some (.number (c :: collected), found) else between word found c
  | .name collected =>
    if Text.isWordPart c then some (.name (c :: collected), found)
    else if c == '.' then none
    else between word found c
  | .nothing => if isNumeralPart c then some (.number [c], found) else between word found c
where
  /-- A character that does not belong to the word under construction, and is no digit or point. -/
  between (word : OpenWord) (found : List Token) (c : Char) : Option (OpenWord × List Token) :=
    if Text.isWordStart c then some (.name [c], word.close found)
    else match ofSymbol? c with
      | some token => some (.nothing, token :: word.close found)
      | none => if Text.isBlank c then some (.nothing, word.close found) else none

/-- Reads the rest of a text, `index` characters into it. -/
def ofTextFrom (index : Nat) (word : OpenWord) (found : List Token) :
    Text → Except LexError (List Token)
  | [] => .ok (.endMark :: word.close found).reverse
  | c :: rest =>
    match step word found c with
    | some (word, found) => ofTextFrom (index + 1) word found rest
    | none => .error ⟨c, word, index⟩

/-- The tokens of a text, the end mark last. -/
def ofText (text : Text) : Except LexError (List Token) :=
  ofTextFrom 0 .nothing [] text

/-! ### Values -/

example : ofText "log10(2.5)".toList =
    .ok [.name "log10".toList, .openBracket, .number "2.5".toList, .closeBracket, .endMark] := rfl

example : ofText "a.b".toList = .error ⟨'.', .name ['a'], 1⟩ := rfl

end Token

end Worksheet

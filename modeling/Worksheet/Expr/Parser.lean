/-
**Reading an expression from its tokens.**

Operators associate to the left and bind by precedence, signs bind tighter than any operator, and
a name followed by an opening bracket is a call. Reading is limited in depth: every bracket, sign,
call and operator of a chain takes one of a fixed number of levels, so that neither reading nor
evaluating can recurse deeper than that. The levels are what the recursion descends on.

* `readLeaf`, `readExpr` and `readChain` read a part of the tokens and return the rest;
* `Expr.ofTokens` reads all of them;
* `ParseError` is what can go wrong.
-/

import Worksheet.Expr.Basic
import Worksheet.Expr.Literal

namespace Worksheet

/-- Why tokens are no expression. -/
inductive ParseFault where
  /-- A token that cannot stand at its place. -/
  | unexpected (token : Token)
  /-- A number token that cannot be read as a double. -/
  | malformedNumber (digits : Text)
  /-- More levels than the limit allows. -/
  | tooDeep
deriving DecidableEq

/-- A fault, with the tokens from the one at fault on. -/
structure ParseFailure where
  fault : ParseFault
  rest : List Token
deriving DecidableEq

/-- A part read, with the tokens behind it. -/
abbrev Reading (α : Type) := Except ParseFailure (α × List Token)

/-- The number of levels that an expression may take. -/
def levelLimit : Nat := 500

namespace Expr

/-- The failure at the first of the tokens. -/
def unexpectedAt (tokens : List Token) : ParseFailure :=
  ⟨.unexpected (tokens.head?.getD .endMark), tokens⟩

/-- Reads one argument after another with `readOne` up to the closing bracket. Every argument takes
a token at least, so no more rounds are needed than there are tokens. -/
def readArguments (readOne : List Token → Reading Expr) :
    (rounds : Nat) → (found : List Expr) → (tokens : List Token) → Reading (List Expr)
  | 0, _, tokens => .error (unexpectedAt tokens)
  | rounds + 1, found, tokens =>
    match readOne tokens with
    | .error failure => .error failure
    | .ok (argument, .closeBracket :: rest) => .ok ((argument :: found).reverse, rest)
    | .ok (argument, .comma :: rest) => readArguments readOne rounds (argument :: found) rest
    | .ok (_, rest) => .error (unexpectedAt rest)

mutual

/-- Reads a number, a name, a call, a bracketed expression or a signed leaf. -/
def readLeaf : (levels : Nat) → (tokens : List Token) → Reading Expr
  | 0, tokens => .error ⟨.tooDeep, tokens⟩
  | levels + 1, tokens =>
    match tokens with
    | .number digits :: rest =>
      match Literal.read? digits with
      | some value => .ok (.number value, rest)
      | none => .error ⟨.malformedNumber digits, tokens⟩
    | .operator .sub :: rest =>
      match readLeaf levels rest with
      | .ok (operand, rest) => .ok (.negate operand, rest)
      | .error failure => .error failure
    | .operator .add :: rest => readLeaf levels rest
    | .openBracket :: rest =>
      match readExpr levels 0 rest with
      | .ok (inner, .closeBracket :: rest) => .ok (inner, rest)
      | .ok (_, rest) => .error (unexpectedAt rest)
      | .error failure => .error failure
    | .name function :: .openBracket :: .closeBracket :: rest => .ok (.call function [], rest)
    | .name function :: .openBracket :: rest =>
      match readArguments (readExpr levels 0) rest.length [] rest with
      | .ok (arguments, rest) => .ok (.call function arguments, rest)
      | .error failure => .error failure
    | .name word :: rest => .ok (.name word, rest)
    | tokens => .error (unexpectedAt tokens)

/-- Reads a leaf and the operators behind it that bind at least as tight as `precedence`. -/
def readExpr : (levels precedence : Nat) → (tokens : List Token) → Reading Expr
  | 0, _, tokens => .error ⟨.tooDeep, tokens⟩
  | levels + 1, precedence, tokens =>
    match readLeaf levels tokens with
    | .ok (first, rest) => readChain levels precedence first rest
    | .error failure => .error failure

/-- Extends `left` by the operators that bind at least as tight as `precedence`, each taking a
level for what follows. -/
def readChain : (levels precedence : Nat) → (left : Expr) → (tokens : List Token) → Reading Expr
  | 0, precedence, left, tokens =>
    match tokens with
    | .operator op :: _ =>
      if precedence ≤ op.precedence then .error ⟨.tooDeep, tokens⟩ else .ok (left, tokens)
    | _ => .ok (left, tokens)
  | levels + 1, precedence, left, tokens =>
    match tokens with
    | .operator op :: rest =>
      if precedence ≤ op.precedence then
        match readExpr levels (op.precedence + 1) rest with
        | .ok (right, rest) => readChain levels precedence (.binary op left right) rest
        | .error failure => .error failure
      else .ok (left, tokens)
    | _ => .ok (left, tokens)

end

end Expr

/-! ### Whole expressions -/

/-- Why a list of tokens as a whole is no expression. -/
inductive ParseError where
  /-- A fault at a token, counted from zero. -/
  | atToken (index : Nat) (fault : ParseFault)
  /-- An expression with further tokens behind it. -/
  | leftOver
deriving DecidableEq

namespace ParseFault

/-- The wording of a fault. -/
def message : ParseFault → Text
  | unexpected token => "invalid token ".toList ++ token.label
  | malformedNumber digits => "malformed number ".toList ++ digits
  | tooDeep => "expression nested too deeply".toList

end ParseFault

namespace ParseError

/-- The wording of a failed reading. -/
def message : ParseError → Text
  | atToken index fault =>
    "at token ".toList ++ Nat.toDigits 10 index ++ ": ".toList ++ fault.message
  | leftOver => "Expected EOF at end of token sequence".toList

end ParseError

namespace Expr

/-- The expression that the tokens before the end mark spell. -/
def ofTokens (tokens : List Token) : Except ParseError Expr :=
  match readExpr levelLimit 0 tokens with
  | .ok (expr, .endMark :: _) => .ok expr
  | .ok _ => .error .leftOver
  | .error failure => .error (.atToken (tokens.length - failure.rest.length) failure.fault)

end Expr

end Worksheet

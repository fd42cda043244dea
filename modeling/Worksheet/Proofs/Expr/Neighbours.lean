/-
**Neighbours in the tokens of an expression.**

Operands have an operator, a comma or a bracket between them. So in the tokens of an expression
neither a name nor a number stands directly behind the end of an operand, and an opening bracket
stands there only behind the name of a function; the last token is always the end of an operand.

* `Token.endsOperand` are the tokens that an operand may end with;
* `Sum.beside`: what may stand behind them, and `Sum.apart`: no name;
* `Sum.exists_last`: the tokens of a sum end with one of them.
-/

import Mathlib.Data.List.Chain
import Worksheet.Proofs.Expr.Grammar

namespace Worksheet

namespace Token

/-- The tokens that an operand may end with. -/
def endsOperand : Token → Bool
  | .number _ => true
  | .name _ => true
  | .closeBracket => true
  | _ => false

/-- The second token may stand directly behind the first: behind an operand stand only operators,
commas and closing brackets, and an opening bracket behind the name of a function. -/
def Beside (first second : Token) : Prop :=
  first.endsOperand = true → (∃ op, second = .operator op) ∨ second = .comma ∨
    second = .closeBracket ∨ second = .openBracket ∧ ∃ function, first = .name function

/-- The second token may stand directly behind the first: it is no name behind an operand. -/
def Apart (first second : Token) : Prop :=
  first.endsOperand = true → ∀ word, second ≠ .name word

theorem Beside.apart {first second : Token} (beside : Beside first second) :
    Apart first second := by
  rintro ends word rfl
  rcases beside ends with ⟨_, ⟨⟩⟩ | ⟨⟨⟩⟩ | ⟨⟨⟩⟩ | ⟨⟨⟩, _⟩

variable {front back : List Token} {middle : Token}

/-- An operator or a comma between tokens. -/
theorem beside_between (before : front.IsChain Beside) (behind : back.IsChain Beside)
    (separates : (∃ op, middle = .operator op) ∨ middle = .comma) :
    (front ++ middle :: back).IsChain Beside := by
  refine List.isChain_append.mpr ⟨before, List.isChain_cons.mpr ⟨?_, behind⟩, ?_⟩
  · intro token _ ends
    rcases separates with ⟨op, rfl⟩ | rfl <;> cases ends
  · rintro token _ _ ⟨⟩ _
    exact separates.imp_right Or.inl

/-- A closing bracket behind tokens. -/
theorem beside_closeBracket (before : front.IsChain Beside) :
    (front ++ [closeBracket]).IsChain Beside := by
  refine List.isChain_append.mpr ⟨before, List.isChain_singleton _, ?_⟩
  rintro token _ _ ⟨⟩ _
  exact Or.inr (Or.inr (Or.inl rfl))

/-- A token in front of tokens that is the end of no operand. -/
theorem beside_cons (behind : back.IsChain Beside) (noEnd : middle.endsOperand = false) :
    (middle :: back).IsChain Beside := by
  refine List.isChain_cons.mpr ⟨fun token _ ends => ?_, behind⟩
  rw [noEnd] at ends
  cases ends

/-- The name of a function and an opening bracket in front of tokens. -/
theorem beside_call (function : Text) (behind : back.IsChain Beside) :
    (.name function :: openBracket :: back).IsChain Beside := by
  refine List.isChain_cons_cons.mpr ⟨fun _ => ?_, beside_cons behind rfl⟩
  exact Or.inr (Or.inr (Or.inr ⟨rfl, function, rfl⟩))

end Token

namespace Grammar

open Token (Apart Beside)

/-! ### What stands behind an operand -/

mutual

theorem Leaf.beside : ∀ leaf : Leaf, leaf.tokens.IsChain Beside
  | .number _ => List.isChain_singleton _
  | .name _ => List.isChain_singleton _
  | .brackets inner => Token.beside_cons (Token.beside_closeBracket inner.beside) rfl
  | .minus operand => Token.beside_cons operand.beside rfl
  | .plus operand => Token.beside_cons operand.beside rfl
  | .emptyCall function => Token.beside_call function (List.isChain_singleton _)
  | .call function arguments => Token.beside_call function arguments.beside

theorem Product.beside : ∀ product : Product, product.tokens.IsChain Beside
  | .leaf only => only.beside
  | .times left op _ right => Token.beside_between left.beside right.beside (Or.inl ⟨op, rfl⟩)

/-- **In a sum an operand and what follows are separated**, unless they are a call. -/
theorem Sum.beside : ∀ sum : Sum, sum.tokens.IsChain Beside
  | .product only => only.beside
  | .plus left op _ right => Token.beside_between left.beside right.beside (Or.inl ⟨op, rfl⟩)

theorem Arguments.beside : ∀ arguments : Arguments, arguments.tokens.IsChain Beside
  | .last argument => Token.beside_closeBracket argument.beside
  | .more argument others =>
    Token.beside_between argument.beside others.beside (Or.inr rfl)

end

/-- In a sum no name stands behind an operand. -/
theorem Sum.apart (sum : Sum) : sum.tokens.IsChain Apart :=
  sum.beside.imp fun _ _ beside => beside.apart

/-- In a sum no bracket opens directly behind a number. -/
theorem Sum.not_number_openBracket (sum : Sum) (digits : Text) :
    ¬ [.number digits, .openBracket] <:+: sum.tokens := by
  intro isIn
  have pair := sum.beside.infix isIn
  rcases List.isChain_pair.mp pair rfl with ⟨_, ⟨⟩⟩ | ⟨⟨⟩⟩ | ⟨⟨⟩⟩ | ⟨_, _, ⟨⟩⟩

/-! ### The last token -/

/-- The tokens end with a token that an operand may end with. -/
def EndsOperand (tokens : List Token) : Prop :=
  ∃ front last, tokens = front ++ [last] ∧ last.endsOperand = true

theorem EndsOperand.tail {token : Token} {tokens : List Token}
    (ends : EndsOperand (token :: tokens)) :
    tokens = [] ∧ token.endsOperand = true ∨ EndsOperand tokens := by
  obtain ⟨front, last, shape, isEnd⟩ := ends
  cases front with
  | nil =>
    cases shape
    exact Or.inl ⟨rfl, isEnd⟩
  | cons first others =>
    cases shape
    exact Or.inr ⟨others, last, rfl, isEnd⟩

theorem EndsOperand.append {tokens : List Token} (ends : EndsOperand tokens) (front : List Token) :
    EndsOperand (front ++ tokens) := by
  obtain ⟨others, last, rfl, isEnd⟩ := ends
  exact ⟨front ++ others, last, (List.append_assoc _ _ _).symm, isEnd⟩

mutual

theorem Leaf.exists_last : ∀ leaf : Leaf, EndsOperand leaf.tokens
  | .number literal => ⟨[], .number literal.text, rfl, rfl⟩
  | .name word => ⟨[], .name word, rfl, rfl⟩
  | .brackets inner => ⟨.openBracket :: inner.tokens, .closeBracket, rfl, rfl⟩
  | .minus operand => operand.exists_last.append [.operator .sub]
  | .plus operand => operand.exists_last.append [.operator .add]
  | .emptyCall function => ⟨[.name function, .openBracket], .closeBracket, rfl, rfl⟩
  | .call function arguments => arguments.exists_last.append [.name function, .openBracket]

theorem Product.exists_last : ∀ product : Product, EndsOperand product.tokens
  | .leaf only => only.exists_last
  | .times left op _ right =>
    (right.exists_last.append [.operator op]).append left.tokens

/-- **The last token of a sum** is the end of an operand. -/
theorem Sum.exists_last : ∀ sum : Sum, EndsOperand sum.tokens
  | .product only => only.exists_last
  | .plus left op _ right =>
    (right.exists_last.append [.operator op]).append left.tokens

theorem Arguments.exists_last : ∀ arguments : Arguments, EndsOperand arguments.tokens
  | .last argument => ⟨argument.tokens, .closeBracket, rfl, rfl⟩
  | .more argument others => (others.exists_last.append [.comma]).append argument.tokens

end

end Grammar

end Worksheet

/-
**The grammar of expressions.**

How an expression is spelled with tokens, said without reading any. A sum is a product or a
shorter sum, a sign and a product; a product is a leaf or a shorter product, a sign and a leaf: as
the left operand is the longer one, both associate to the left. A leaf is a literal, a name, a
signed leaf, a sum in brackets or a call, and a sign plus leaves no trace in the tree.

* `Leaf`, `Product`, `Sum` and `Arguments` are the phrases of the grammar;
* `Sum.tokens` are the tokens that spell a sum, and `Sum.tree` is the expression it stands for;
* `Sum.levels` is how many levels reading it takes: a loop takes a level for itself and one for each
  operator that it has absorbed, which it holds until it ends.
-/

import Worksheet.Expr.Parser
import Worksheet.Proofs.Expr.Literal

namespace Worksheet

namespace Grammar

mutual

/-- What operators stand between. -/
inductive Leaf where
  | number (literal : Literal)
  | name (word : Text)
  | brackets (inner : Sum)
  | minus (operand : Leaf)
  | plus (operand : Leaf)
  /-- A call without arguments. -/
  | emptyCall (function : Text)
  | call (function : Text) (arguments : Arguments)

/-- Leaves with signs of multiplication and division between them. -/
inductive Product where
  | leaf (only : Leaf)
  | times (left : Product) (op : Operator) (sign : op ∈ [.mul, .div]) (right : Leaf)

/-- Products with signs of addition and subtraction between them. -/
inductive Sum where
  | product (only : Product)
  | plus (left : Sum) (op : Operator) (sign : op ∈ [.add, .sub]) (right : Product)

/-- Sums with commas between them. -/
inductive Arguments where
  | last (argument : Sum)
  | more (argument : Sum) (others : Arguments)

end

/-! ### Tokens -/

mutual

/-- The tokens that spell a leaf. -/
def Leaf.tokens : Leaf → List Token
  | .number literal => [.number literal.text]
  | .name word => [.name word]
  | .brackets inner => .openBracket :: (inner.tokens ++ [.closeBracket])
  | .minus operand => .operator .sub :: operand.tokens
  | .plus operand => .operator .add :: operand.tokens
  | .emptyCall function => [.name function, .openBracket, .closeBracket]
  | .call function arguments => .name function :: .openBracket :: arguments.tokens

/-- The tokens that spell a product. -/
def Product.tokens : Product → List Token
  | .leaf only => only.tokens
  | .times left op _ right => left.tokens ++ .operator op :: right.tokens

/-- The tokens that spell a sum. -/
def Sum.tokens : Sum → List Token
  | .product only => only.tokens
  | .plus left op _ right => left.tokens ++ .operator op :: right.tokens

/-- The tokens that spell arguments, up to the closing bracket. -/
def Arguments.tokens : Arguments → List Token
  | .last argument => argument.tokens ++ [.closeBracket]
  | .more argument others => argument.tokens ++ .comma :: others.tokens

end

/-! ### Trees -/

mutual

/-- The expression that a leaf stands for. -/
def Leaf.tree : Leaf → Expr
  | .number literal => .number literal.value
  | .name word => .name word
  | .brackets inner => inner.tree
  | .minus operand => .negate operand.tree
  | .plus operand => operand.tree
  | .emptyCall function => .call function []
  | .call function arguments => .call function arguments.trees

/-- The expression that a product stands for. -/
def Product.tree : Product → Expr
  | .leaf only => only.tree
  | .times left op _ right => .binary op left.tree right.tree

/-- The expression that a sum stands for. -/
def Sum.tree : Sum → Expr
  | .product only => only.tree
  | .plus left op _ right => .binary op left.tree right.tree

/-- The expressions that arguments stand for. -/
def Arguments.trees : Arguments → List Expr
  | .last argument => [argument.tree]
  | .more argument others => argument.tree :: others.trees

end

/-- The tree of a numeral is the double that it stands for. -/
theorem Leaf.tree_numeral (numeral : Numeral) :
    (Leaf.number numeral).tree = .number numeral.value := by
  rw [Leaf.tree, Numeral.value_literal]

/-! ### Levels -/

/-- The number of operators in a product. -/
def Product.operators : Product → Nat
  | .leaf _ => 0
  | .times left _ _ _ => left.operators + 1

/-- The number of operators that one loop absorbs while it reads a sum. The first product is read by
the same loop; the products behind a sign are operands of it, read by loops of their own. -/
def Sum.operators : Sum → Nat
  | .product only => only.operators
  | .plus left _ _ _ => left.operators + 1

mutual

/-- The levels that reading a leaf takes. -/
def Leaf.levels : Leaf → Nat
  | .number _ => 1
  | .name _ => 1
  | .brackets inner => 1 + inner.levels
  | .minus operand => 1 + operand.levels
  | .plus operand => 1 + operand.levels
  | .emptyCall _ => 1
  | .call _ arguments => 1 + arguments.levels

/-- The levels that reading a product takes: one for its loop, and on top of it what the first leaf
takes, and for every operator what its operand takes on top of all operators up to this one. -/
def Product.levels : Product → Nat
  | .leaf only => 1 + only.levels
  | .times left _ _ right => max left.levels (1 + (left.operators + 1) + (1 + right.levels))

/-- The levels that reading a sum takes. -/
def Sum.levels : Sum → Nat
  | .product only => only.levels
  | .plus left _ _ right => max left.levels (1 + (left.operators + 1) + right.levels)

/-- The levels that the largest of the arguments takes. -/
def Arguments.levels : Arguments → Nat
  | .last argument => argument.levels
  | .more argument others => max argument.levels others.levels

end

end Grammar

end Worksheet

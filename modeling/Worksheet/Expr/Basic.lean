/-
**Expressions.**

The tree that an expression is read into. A sign minus is a node, a sign plus leaves no trace, and
brackets are only in the shape of the tree. `Expr.toText` shows a tree with all its brackets.
-/

import Worksheet.Expr.Token
import Worksheet.Number.Shortest

namespace Worksheet

/-- An arithmetic expression over doubles. -/
inductive Expr where
  | number (value : Float)
  | name (word : Text)
  | negate (operand : Expr)
  | binary (op : Operator) (left right : Expr)
  | call (function : Text) (arguments : List Expr)

namespace Expr

mutual

/-- The tree with every node in brackets, operator or function first. -/
def toText : Expr → Text
  | number value => shortestText value
  | name word => "(id ".toList ++ word ++ [')']
  | negate operand => "(neg ".toList ++ operand.toText ++ [')']
  | binary op left right =>
    '(' :: op.symbol :: ' ' :: left.toText ++ ' ' :: right.toText ++ [')']
  | call function arguments => "(call ".toList ++ function ++ argumentsText arguments ++ [')']

/-- The trees of arguments, a space in front of each. -/
def argumentsText : List Expr → Text
  | [] => []
  | first :: others => ' ' :: first.toText ++ argumentsText others

end

end Expr

end Worksheet

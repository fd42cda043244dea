/-
**The value of an expression.**

Only twelve functions can be called, and nothing but a finite number can come out of any node: a
literal, an operation or a call that is not finite is a failure, as is a name that still stands in
the expression. Operands are evaluated from left to right and the first failure wins; a function
that is not on the list fails before its arguments are looked at, a wrong number of arguments
after.

* `Function` is the list of functions;
* `Expr.eval` is the value of an expression;
* `EvalError` is what can go wrong.
-/

import Worksheet.Expr.Basic
import Worksheet.Number.Whole

namespace Worksheet

/-! ### Functions -/

/-- The functions that an expression may call. -/
inductive Function where
  | sqrt
  | sin
  | cos
  | tan
  | log
  | log10
  | exp
  | pow
  | abs
  | ceil
  | floor
  | round
deriving DecidableEq

namespace Function

/-- All functions, in the order in which they are listed. -/
def all : List Function :=
  [sqrt, sin, cos, tan, log, log10, exp, pow, abs, ceil, floor, round]

/-- The name that calls the function. -/
def name : Function → Text
  | sqrt => "sqrt".toList
  | sin => "sin".toList
  | cos => "cos".toList
  | tan => "tan".toList
  | log => "log".toList
  | log10 => "log10".toList
  | exp => "exp".toList
  | pow => "pow".toList
  | abs => "abs".toList
  | ceil => "ceil".toList
  | floor => "floor".toList
  | round => "round".toList

/-- The function with a name. -/
def ofName? (name : Text) : Option Function :=
  all.find? fun function => function.name == name

/-- The number of arguments that the function takes. -/
def arity : Function → Nat
  | pow => 2
  | _ => 1

/-- The function of one argument, for the functions that take one. -/
def unary? : Function → Option (Float → Float)
  | sqrt => some Float.sqrt
  | sin => some Float.sin
  | cos => some Float.cos
  | tan => some Float.tan
  | log => some Float.log
  | log10 => some Float.log10
  | exp => some Float.exp
  | pow => none
  | abs => some Float.abs
  | ceil => some ceiling
  | floor => some Worksheet.floor
  | round => some roundHalfUp

/-- The value at the given arguments, if their number is right. -/
def valueAt? (function : Function) (arguments : List Float) : Option Float :=
  match function.unary?, arguments with
  | some compute, [x] => some (compute x)
  | none, [x, y] => some (Float.pow x y)
  | _, _ => none

end Function

/-! ### Evaluation -/

/-- Why an expression has no value. -/
inductive EvalError where
  /-- A literal that is not finite. -/
  | infiniteLiteral
  /-- An operation whose value is not finite. -/
  | infiniteOperation
  /-- A call whose value is not finite. -/
  | infiniteCall (function : Function)
  /-- A call with a wrong number of arguments. -/
  | wrongArity (function : Function) (given : Nat)
  /-- A call of something that is not on the list of functions. -/
  | notAllowed (name : Text)
  /-- A name that stands for nothing. -/
  | unknownName (name : Text)
deriving DecidableEq

namespace EvalError

/-- The wording of a failure. -/
def message : EvalError → Text
  | infiniteLiteral => infinite "literal".toList
  | infiniteOperation => infinite "arithmetic".toList
  | infiniteCall function => infinite function.name
  | wrongArity function given =>
    function.name ++ " takes ".toList ++ Nat.toDigits 10 function.arity ++
      (if function.arity = 1 then " argument".toList else " arguments".toList) ++
      ", got ".toList ++ Nat.toDigits 10 given
  | notAllowed name => name ++ " is not an allowed function".toList
  | unknownName name => "unknown identifier ".toList ++ name
where
  /-- The wording for a value that is not finite. -/
  infinite (source : Text) : Text :=
    source ++ " produced a non-finite result".toList

end EvalError

/-- The value if it is finite, and the failure otherwise. -/
def requireFinite (value : Float) (failure : EvalError) : Except EvalError Float :=
  if value.isFinite then .ok value else .error failure

namespace Operator

/-- The operation on doubles. -/
def apply (op : Operator) (x y : Float) : Float :=
  match op with
  | add => x + y
  | sub => x - y
  | mul => x * y
  | div => x / y

end Operator

namespace Function

/-- The value of a call, which has to be finite. -/
def call (function : Function) (arguments : List Float) : Except EvalError Float :=
  match function.valueAt? arguments with
  | none => .error (.wrongArity function arguments.length)
  | some value => requireFinite value (.infiniteCall function)

end Function

namespace Expr

mutual

/-- The value of an expression. -/
def eval : Expr → Except EvalError Float
  | number value => requireFinite value .infiniteLiteral
  | name word => .error (.unknownName word)
  | negate operand =>
    match eval operand with
    | .ok x => .ok (-x)
    | .error failure => .error failure
  | binary op left right =>
    match eval left with
    | .error failure => .error failure
    | .ok x =>
      match eval right with
      | .error failure => .error failure
      | .ok y => requireFinite (op.apply x y) .infiniteOperation
  | call callee arguments =>
    match Function.ofName? callee with
    | none => .error (.notAllowed callee)
    | some function =>
      match evalAll arguments with
      | .error failure => .error failure
      | .ok values => function.call values

/-- The values of arguments, from left to right. -/
def evalAll : List Expr → Except EvalError (List Float)
  | [] => .ok []
  | first :: others =>
    match eval first with
    | .error failure => .error failure
    | .ok x =>
      match evalAll others with
      | .error failure => .error failure
      | .ok values => .ok (x :: values)

end

end Expr

end Worksheet

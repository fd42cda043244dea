/-
**Values are finite.**

Every node of an expression but a sign checks its own value, and a sign makes no finite number
infinite. So whatever a formula is made of, and whatever its variables hold, its value is a finite
number.

* `eval_negate_eq_ok_iff`, `eval_binary_eq_ok_iff`, `eval_call_eq_ok_iff`, `evaluateText_eq_ok_iff`:
  when a node and when a text has a value;
* `isFinite_of_eval` and `isFinite_of_evaluate`: the value of an expression and of a formula is
  finite.
-/

import Worksheet.Formula
import Worksheet.Proofs.Number.Bits

namespace Worksheet

theorem requireFinite_eq_ok_iff (x value : Float) (failure : EvalError) :
    requireFinite x failure = .ok value ↔ x = value ∧ value.isFinite = true := by
  unfold requireFinite
  split
  next finite =>
    rw [Except.ok.injEq]
    exact ⟨fun same => ⟨same, same ▸ finite⟩, And.left⟩
  next infinite =>
    refine iff_of_false nofun ?_
    rintro ⟨rfl, finite⟩
    exact infinite finite

theorem Function.call_eq_ok_iff (function : Function) (inputs : List Float) (value : Float) :
    function.call inputs = .ok value ↔
      function.valueAt? inputs = some value ∧ value.isFinite = true := by
  unfold call
  cases computed : function.valueAt? inputs with
  | none => exact iff_of_false nofun fun ⟨isValue, _⟩ => nomatch isValue
  | some result =>
    dsimp only
    rw [requireFinite_eq_ok_iff, Option.some.injEq]

namespace Expr

/-! ### Evaluating one node -/

theorem eval_negate_eq_ok_iff (operand : Expr) (value : Float) :
    (negate operand).eval = .ok value ↔ ∃ x, operand.eval = .ok x ∧ -x = value := by
  rw [eval]
  cases operand.eval with
  | error failure => exact iff_of_false nofun fun ⟨_, isValue, _⟩ => nomatch isValue
  | ok x => simp

theorem eval_binary_eq_ok_iff (op : Operator) (left right : Expr) (value : Float) :
    (binary op left right).eval = .ok value ↔
      (∃ x, left.eval = .ok x ∧ ∃ y, right.eval = .ok y ∧ op.apply x y = value) ∧
        value.isFinite = true := by
  rw [eval]
  cases left.eval with
  | error failure => exact iff_of_false nofun fun ⟨⟨_, isValue, _⟩, _⟩ => nomatch isValue
  | ok x =>
    cases right.eval with
    | error failure => exact iff_of_false nofun fun ⟨⟨_, _, _, isValue, _⟩, _⟩ => nomatch isValue
    | ok y =>
      dsimp only
      rw [requireFinite_eq_ok_iff]
      simp

theorem eval_call_eq_ok_iff (callee : Text) (arguments : List Expr) (value : Float) :
    (call callee arguments).eval = .ok value ↔
      ∃ function, Function.ofName? callee = some function ∧
        ∃ inputs, evalAll arguments = .ok inputs ∧ function.call inputs = .ok value := by
  rw [eval]
  cases Function.ofName? callee with
  | none => exact iff_of_false nofun fun ⟨_, listed, _⟩ => nomatch listed
  | some function =>
    cases evalAll arguments with
    | error failure => exact iff_of_false nofun fun ⟨_, _, _, isValue, _⟩ => nomatch isValue
    | ok inputs => simp

theorem evalAll_cons_eq_ok_iff (first : Expr) (others : List Expr) (values : List Float) :
    evalAll (first :: others) = .ok values ↔
      ∃ x, first.eval = .ok x ∧ ∃ later, evalAll others = .ok later ∧ x :: later = values := by
  rw [evalAll]
  cases first.eval with
  | error failure => exact iff_of_false nofun fun ⟨_, isValue, _⟩ => nomatch isValue
  | ok x =>
    cases evalAll others with
    | error failure => exact iff_of_false nofun fun ⟨_, _, _, isValue, _⟩ => nomatch isValue
    | ok later => simp

/-! ### Evaluating a tree -/

/-- **An expression has no value but a finite one.** -/
theorem isFinite_of_eval : ∀ {expr : Expr} {value : Float}, expr.eval = .ok value →
    value.isFinite = true
  | .number _, _, evaluates => by
    rw [eval, requireFinite_eq_ok_iff] at evaluates
    exact evaluates.2
  | .name _, _, evaluates => by
    rw [eval] at evaluates
    cases evaluates
  | .negate operand, _, evaluates => by
    obtain ⟨x, isValue, rfl⟩ := (eval_negate_eq_ok_iff _ _).mp evaluates
    exact Binary.isFinite_neg (isFinite_of_eval isValue)
  | .binary op left right, _, evaluates => ((eval_binary_eq_ok_iff _ _ _ _).mp evaluates).2
  | .call callee arguments, _, evaluates => by
    obtain ⟨function, -, inputs, -, called⟩ := (eval_call_eq_ok_iff _ _ _).mp evaluates
    exact ((function.call_eq_ok_iff _ _).mp called).2

end Expr

namespace Variables

/-- A text has the value of the tree that it is read into. -/
theorem evaluateText_eq_ok_iff (text : Text) (value : Float) :
    evaluateText text = .ok value ↔
      ∃ tokens tree, Token.ofText text = .ok tokens ∧ Expr.ofTokens tokens = .ok tree ∧
        tree.eval = .ok value := by
  unfold evaluateText
  cases Token.ofText text with
  | error cause => simp
  | ok tokens =>
    dsimp only
    cases parsed : Expr.ofTokens tokens with
    | error cause => simp [parsed]
    | ok tree =>
      dsimp only
      cases evaluated : tree.eval with
      | error cause => simp [parsed, evaluated]
      | ok result => simp [parsed, evaluated]

/-- A formula has no value but a finite one, whatever the variables hold. -/
theorem isFinite_of_evaluate {scope : Variables} {formula : Text} {value : Float}
    (evaluates : scope.evaluate formula = .ok value) : value.isFinite = true := by
  obtain ⟨_, _, _, _, isValue⟩ := (evaluateText_eq_ok_iff _ _).mp evaluates
  exact Expr.isFinite_of_eval isValue

end Variables

end Worksheet

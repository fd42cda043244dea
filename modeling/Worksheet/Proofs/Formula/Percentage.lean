/-
**The value of a percentage of numerals.**

With a numeral on both sides, a form of percentage is spelled out by its own pass, and neither of
the other passes finds anything, before or after it. What results is a formula of two numbers, which
has a value exactly if the numbers are finite and no operation overflows.

* `PercentForm.amount` is what a form amounts to, and `PercentForm.steps` are the numbers on the
  way;
* `PercentForm.bracketed` is the expression that a form is spelled out as;
* `evaluate_percentage`: a percentage of numerals has the value that it amounts to.
-/

import Worksheet.Proofs.Formula.PercentOfName

namespace Worksheet

namespace Expr

/-- Evaluating the tree gives this value and no other, and it does so under this condition. -/
def Amounts (tree : Expr) (condition : Prop) (result : Float) : Prop :=
  ∀ value, tree.eval = .ok value ↔ condition ∧ value = result

theorem amounts_number (x : Float) : (number x).Amounts (x.isFinite = true) x := by
  intro value
  rw [eval, requireFinite_eq_ok_iff]
  constructor
  · rintro ⟨rfl, finite⟩
    exact ⟨finite, rfl⟩
  · rintro ⟨finite, rfl⟩
    exact ⟨rfl, finite⟩

theorem Amounts.binary {left right : Expr} {conditionLeft conditionRight : Prop} {x y : Float}
    (amountsLeft : left.Amounts conditionLeft x) (op : Operator)
    (amountsRight : right.Amounts conditionRight y) :
    (binary op left right).Amounts
      (conditionLeft ∧ conditionRight ∧ (op.apply x y).isFinite = true) (op.apply x y) := by
  intro value
  rw [eval_binary_eq_ok_iff]
  constructor
  · rintro ⟨⟨a, isLeft, b, isRight, rfl⟩, finite⟩
    obtain ⟨holdsLeft, rfl⟩ := (amountsLeft a).mp isLeft
    obtain ⟨holdsRight, rfl⟩ := (amountsRight b).mp isRight
    exact ⟨⟨holdsLeft, holdsRight, finite⟩, rfl⟩
  · rintro ⟨⟨holdsLeft, holdsRight, finite⟩, rfl⟩
    exact ⟨⟨x, (amountsLeft x).mpr ⟨holdsLeft, rfl⟩, y, (amountsRight y).mpr ⟨holdsRight, rfl⟩,
      rfl⟩, finite⟩

theorem Amounts.congr {tree : Expr} {condition other : Prop} {result : Float}
    (amounts : tree.Amounts condition result) (same : condition ↔ other) :
    tree.Amounts other result := fun value =>
  (amounts value).trans (and_congr_left' same)

end Expr

namespace PercentForm

open Grammar

/-! ### What a form amounts to -/

/-- What a form amounts to, in this order of operations. -/
def amount (form : PercentForm) (x y : Float) : Float :=
  match form with
  | share => x / 100 * y
  | increase => x + x * y / 100
  | decrease => x - x * y / 100

/-- The numbers that come up: the operands, what is computed from them, and what the form amounts
to. -/
def steps (form : PercentForm) (x y : Float) : List Float :=
  match form with
  | share => [x, y, x / 100, form.amount x y]
  | increase | decrease => [x, y, x * y, x * y / 100, form.amount x y]

/-! ### What is read -/

/-- The expression of an increase or a decrease. -/
def signedSum (op : Operator) (sign : op ∈ [.add, .sub]) (first second : Numeral) : Sum :=
  let alone (numeral : Numeral) : Leaf := .brackets (.product (.leaf (.number numeral)))
  .plus (.product (.leaf (alone first))) op sign
    (.leaf (.brackets (.product
      (.times (.times (.leaf (alone first)) .mul mul_isProduct (alone second))
        .div div_isProduct (.number hundred)))))

/-- The expression that a form is spelled out as. -/
def bracketed (form : PercentForm) (first second : Numeral) : Sum :=
  match form with
  | share =>
    .product (.times (.leaf (.brackets (.product
      (.times (.leaf (.number first)) .div div_isProduct (.number hundred)))))
      .mul mul_isProduct (.number second))
  | increase => signedSum .add add_isSum first second
  | decrease => signedSum .sub sub_isSum first second

theorem tokens_bracketed (form : PercentForm) (first second : Numeral) :
    (form.bracketed first second).tokens = .openBracket :: form.tokens first second := by
  cases form <;> rfl

theorem levels_bracketed (form : PercentForm) (first second : Numeral) :
    (form.bracketed first second).levels ≤ levelLimit := by
  cases form <;>
    simp [bracketed, signedSum, Sum.levels, Product.levels, Leaf.levels, Sum.operators,
      Product.operators, levelLimit]

theorem reads_bracketed (form : PercentForm) (first second : Numeral) :
    Token.Reads (form.spelledOut first.digits second.digits)
      (form.bracketed first second).tokens := by
  obtain ⟨rest, text, scanned⟩ := form.scan_spelledOut first second
  obtain ⟨word, back, scanned, closed⟩ := scanned [.openBracket]
  have bracket : Token.step .nothing [] '(' = some (.nothing, [.openBracket]) := rfl
  rw [text, Token.reads_iff]
  refine ⟨word, back, ?_, ?_⟩
  · rw [Token.scan_cons, bracket]
    exact scanned
  · rw [closed, tokens_bracketed, List.reverse_append, List.reverse_reverse]
    rfl

/-! ### Its value -/

theorem hundred_exact : hundred.value = 100 ∧ (100 : Float).isFinite = true := by
  decide +kernel

/-- The tree of the expression. -/
def formula (form : PercentForm) (x y : Float) : Expr :=
  let part : Expr := .binary .div (.binary .mul (.number x) (.number y)) (.number 100)
  match form with
  | share => .binary .mul (.binary .div (.number x) (.number 100)) (.number y)
  | increase => .binary .add (.number x) part
  | decrease => .binary .sub (.number x) part

theorem tree_bracketed (form : PercentForm) (first second : Numeral) :
    (form.bracketed first second).tree = form.formula first.value second.value := by
  cases form <;>
    simp [bracketed, signedSum, formula, Sum.tree, Product.tree, Leaf.tree, hundred_exact.1]

/-- The expression has a value exactly if all numbers that come up are finite. -/
theorem amounts_formula (form : PercentForm) (x y : Float) :
    (form.formula x y).Amounts (∀ step ∈ form.steps x y, step.isFinite = true)
      (form.amount x y) := by
  have hundredth {left : Expr} {condition : Prop} {z : Float} (amounts : left.Amounts condition z) :
      (Expr.binary .div left (.number 100)).Amounts
        (condition ∧ (z / 100).isFinite = true) (z / 100) :=
    (amounts.binary .div (Expr.amounts_number 100)).congr
      (and_congr_right' (and_iff_right hundred_exact.2))
  have first := Expr.amounts_number x
  have second := Expr.amounts_number y
  -- The first operand of an increase or a decrease comes up twice.
  have signed (op : Operator) :
      (Expr.binary op (.number x)
        (.binary .div (.binary .mul (.number x) (.number y)) (.number 100))).Amounts
        (∀ step ∈ [x, y, x * y, x * y / 100, op.apply x (x * y / 100)], step.isFinite = true)
        (op.apply x (x * y / 100)) := by
    refine (first.binary op (hundredth (first.binary .mul second))).congr ?_
    simp only [List.forall_mem_cons]
    exact ⟨fun ⟨isFirst, ⟨⟨_, isSecond, product⟩, part⟩, amount⟩ =>
        ⟨isFirst, isSecond, product, part, amount, List.forall_mem_nil _⟩,
      fun ⟨isFirst, isSecond, product, part, amount, _⟩ =>
        ⟨isFirst, ⟨⟨isFirst, isSecond, product⟩, part⟩, amount⟩⟩
  cases form with
  | share =>
    refine ((hundredth first).binary .mul second).congr ?_
    simp only [steps, List.forall_mem_cons]
    exact ⟨fun ⟨⟨isFirst, part⟩, isSecond, amount⟩ =>
        ⟨isFirst, isSecond, part, amount, List.forall_mem_nil _⟩,
      fun ⟨isFirst, isSecond, part, amount, _⟩ => ⟨⟨isFirst, part⟩, isSecond, amount⟩⟩
  | increase => exact signed .add
  | decrease => exact signed .sub

end PercentForm

namespace Variables

/-- A form with a numeral on both sides has the value that it amounts to. -/
theorem evaluate_behind (form : PercentForm) (scope : Variables) (spacing : Spacing)
    {first second : Numeral} (firstOperand : IsOperand first.digits)
    (secondOperand : IsOperand second.digits) (value : Float) :
    scope.evaluate (first.digits ++ form.behind spacing second.digits) = .ok value ↔
      (∀ step ∈ form.steps first.value second.value, step.isFinite = true) ∧
        value = form.amount first.value second.value := by
  have spelled : spellOutPercentages (first.digits ++ form.behind spacing second.digits) =
      form.spelledOut first.digits second.digits :=
    spellOutPercentages_behind [] (fun _ _ => rfl) form spacing firstOperand secondOperand
  rw [evaluate, spelled, substitute_eq_self scope (form.isWordStart_of_mem_spelledOut first second),
    evaluateText_of_reads (form.reads_bracketed first second) (form.levels_bracketed first second),
    form.tree_bracketed, form.amounts_formula _ _ value]

/-- **A percentage of numerals amounts to what its form says.** With any white space where the form
allows it and whatever the variables are, it has a value exactly if its operands are finite and no
operation overflows, and the value is computed in the order that the form says. A text without a
percent sign is left as it is. -/
theorem evaluate_percentage :
    (∀ (form : PercentForm) (scope : Variables) (spacing : Spacing) {first second : Text},
      IsOperand first → IsOperand second →
        ∃ x y, (Decimal.ofText? first).map Decimal.toFloat = some x ∧
          (Decimal.ofText? second).map Decimal.toFloat = some y ∧
          ∀ value, scope.evaluate (first ++ form.behind spacing second) = .ok value ↔
            (∀ step ∈ form.steps x y, step.isFinite = true) ∧ value = form.amount x y) ∧
    ∀ text, '%' ∉ text → spellOutPercentages text = text := by
  have reads (numeral : Numeral) :
      (Decimal.ofText? numeral.digits).map Decimal.toFloat = some numeral.value := by
    rw [numeral.ofText?_digits]
    rfl
  refine ⟨fun form scope spacing first second firstOperand secondOperand => ?_,
    fun text => spellOutPercentages_eq_self⟩
  obtain ⟨first, rfl⟩ := firstOperand.exists_numeral
  obtain ⟨second, rfl⟩ := secondOperand.exists_numeral
  exact ⟨first.value, second.value, reads first, reads second,
    evaluate_behind form scope spacing firstOperand secondOperand⟩

/-- The value of `12.5 % of 8` is 1. -/
theorem evaluate_percentage_eighth :
    IsOperand "12.5".toList ∧ IsOperand "8".toList ∧
      "12.5 % of 8".toList = "12.5".toList ++ PercentForm.share.behind oneSpace "8".toList ∧
      empty.evaluate "12.5 % of 8".toList = .ok 1 := by
  have first : IsOperand "12.5".toList :=
    ⟨['1', '2'], ['.'], ['5'], rfl, by simp, Or.inr rfl, by simp, List.cons_ne_nil _ _⟩
  have second : IsOperand "8".toList := isOperand_digits (by simp) (List.cons_ne_nil _ _)
  have text : "12.5 % of 8".toList =
      "12.5".toList ++ PercentForm.share.behind oneSpace "8".toList := rfl
  have isFirst : (Decimal.ofText? "12.5".toList).map Decimal.toFloat = some 12.5 := by
    decide +kernel
  have isSecond : (Decimal.ofText? "8".toList).map Decimal.toFloat = some 8 := by
    decide +kernel
  obtain ⟨x, y, isX, isY, amounts⟩ := evaluate_percentage.1 .share empty oneSpace first second
  cases isX.symm.trans isFirst
  cases isY.symm.trans isSecond
  refine ⟨first, second, text, ?_⟩
  rw [text, amounts]
  exact ⟨by decide +kernel, by decide +kernel⟩

end Variables

end Worksheet

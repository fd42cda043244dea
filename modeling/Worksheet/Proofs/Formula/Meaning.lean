/-
**The meaning of variables in a formula.**

A formula is evaluated by putting the texts of values into it. On a formula that is an expression
this is the same as looking the values up in its tree: the tokens of a value take the place of a
name, a sign and a numeral are an operand like a name is, and what the numeral is read as is the
value again. The one thing that differs is the level that a sign takes.

* `exists_of_reads`: a text that is an expression is spelled by a phrase of the grammar, and
  `evaluateText_of_reads` is its value;
* `evaluate_iff_eval_fill`: a formula that is an expression has the value of its tree with the
  variables looked up, or a sign puts it beyond the limit of levels.
-/

import Worksheet.Proofs.Expr.Exactness
import Worksheet.Proofs.Expr.Finite
import Worksheet.Proofs.Expr.Neighbours
import Worksheet.Proofs.Formula.Filling
import Worksheet.Proofs.Percent

namespace Worksheet

namespace Grammar

/-! ### Texts that are expressions -/

/-- In the tokens of a sum no name is glued to a numeral. -/
theorem Sum.not_gluedIn (sum : Sum) : ¬ Token.GluedIn sum.tokens := by
  rintro ⟨digits, name, isIn⟩
  have pair := sum.apart.infix isIn
  exact List.isChain_pair.mp pair rfl name rfl

/-- A text that is an expression is spelled by a sum within the limit of levels. -/
theorem exists_of_reads {text : Text} {tokens : List Token} {tree : Expr}
    (lexed : Token.ofText text = .ok tokens) (parsed : Expr.ofTokens tokens = .ok tree) :
    ∃ sum : Sum, Token.Reads text sum.tokens ∧ sum.tree = tree ∧ sum.levels ≤ levelLimit := by
  obtain ⟨body, rfl, read⟩ := Token.exists_reads lexed
  obtain ⟨sum, rfl, rfl⟩ := (ofTokens_exact body read.2).1 tree parsed
  refine ⟨sum, read, rfl, Nat.not_lt.mp fun few => ?_⟩
  obtain ⟨index, deep⟩ := sum.ofTokens_tooDeep [] few
  rw [deep] at parsed
  cases parsed

end Grammar

namespace Variables

open Grammar

variable {scope : Variables} {text formula : Text} {sum : Sum}

/-- The value of a text that a sum within the limit of levels spells. -/
theorem evaluateText_of_reads (read : Token.Reads text sum.tokens)
    (enough : sum.levels ≤ levelLimit) (value : Float) :
    evaluateText text = .ok value ↔ sum.tree.eval = .ok value := by
  rw [evaluateText, read.1]
  dsimp only
  rw [sum.ofTokens_eq [] enough]
  dsimp only
  cases sum.tree.eval with
  | error cause => exact ⟨nofun, nofun⟩
  | ok result => rw [Except.ok.injEq, Except.ok.injEq]

/-- A text that has a value is spelled by a sum within the limit of levels. -/
theorem exists_of_evaluateText {value : Float} (evaluates : evaluateText text = .ok value) :
    ∃ sum : Sum, Token.Reads text sum.tokens ∧ sum.levels ≤ levelLimit := by
  obtain ⟨tokens, tree, lexed, parsed, -⟩ := (evaluateText_eq_ok_iff _ _).mp evaluates
  obtain ⟨sum, read, -, enough⟩ := exists_of_reads lexed parsed
  exact ⟨sum, read, enough⟩

/-- A text that a sum beyond the limit spells is nested too deeply. -/
theorem evaluateText_tooDeep (read : Token.Reads text sum.tokens) (few : levelLimit < sum.levels) :
    ∃ index, evaluateText text = .error (.parsing (.atToken index .tooDeep)) := by
  obtain ⟨index, deep⟩ := sum.ofTokens_tooDeep [] few
  refine ⟨index, ?_⟩
  rw [evaluateText, read.1]
  dsimp only
  rw [deep]

/-- A formula that is an expression has no percentages, so that only variables are replaced. -/
theorem evaluate_of_reads {body : List Token} (read : Token.Reads formula body) :
    scope.evaluate formula = evaluateText (scope.substitute formula) := by
  obtain ⟨word, found, scanned, _⟩ := (Token.reads_iff _ _).mp read
  rw [evaluate, spellOutPercentages_eq_self (Token.percent_notMem_of_scan scanned)]

/-- What substitution makes of an expression is spelled by the phrase with the values in it. -/
theorem reads_fill (read : Token.Reads formula sum.tokens) (numbers : scope.Numbers sum.tree.names)
    (functions : scope.Unbound sum.tree.callees) :
    Token.Reads (scope.substitute formula) (sum.fill scope).tokens := by
  have inText : scope.NumbersIn formula := by
    rintro front name back value rfl alone held
    have isIn := sum.mem_of_name_mem (read.around alone).1
    rw [List.mem_append] at isIn
    rcases isIn with isValue | isFunction
    · exact numbers name isValue value held
    · rw [functions name isFunction] at held
      cases held
  obtain ⟨replaced, readLater, same⟩ :=
    (reads_substitute (not_touchesPoint read sum.not_gluedIn) inText).1 _ read
  rcases same with rfl | ⟨glued, _⟩
  · rw [sum.tokens_fill functions]
    exact readLater
  · exact absurd glued sum.not_gluedIn

/-- **Substitution preserves meaning.** Let a formula be an expression whose values are finite
numbers and whose functions are no variables. Then it has a value exactly if its tree with the
variables looked up has it; or else it takes all levels already, and the sign of a number below zero
is one too many. -/
theorem evaluate_iff_eval_fill (scope : Variables) {formula : Text} {tokens : List Token}
    {tree : Expr} (lexed : Token.ofText formula = .ok tokens)
    (parsed : Expr.ofTokens tokens = .ok tree) (numbers : scope.Numbers tree.names)
    (functions : scope.Unbound tree.callees) :
    (∀ value, scope.evaluate formula = .ok value ↔ (tree.fill scope).eval = .ok value) ∨
      (∃ index, scope.evaluate formula = .error (.parsing (.atToken index .tooDeep))) ∧
        (∃ name ∈ tree.names, scope.IsNegative name) ∧
        ∃ sum : Sum, Token.Reads formula sum.tokens ∧ sum.levels = levelLimit := by
  obtain ⟨sum, read, rfl, enough⟩ := exists_of_reads lexed parsed
  have readLater := reads_fill read numbers functions
  rw [evaluate_of_reads read, ← sum.eval_fill numbers]
  have levels : Raised scope sum.tree.names sum.levels (sum.fill scope).levels := sum.levels_fill
  rcases levels with same | ⟨raised, negative⟩
  · exact Or.inl (evaluateText_of_reads readLater (same ▸ enough))
  · by_cases room : (sum.fill scope).levels ≤ levelLimit
    · exact Or.inl (evaluateText_of_reads readLater room)
    · refine Or.inr ⟨evaluateText_tooDeep readLater (Nat.not_le.mp room), negative, sum, read, ?_⟩
      omega

/-- All that a single variable holds is its number. -/
theorem numbers_single (word : Text) {x : Float} (finite : x.isFinite = true) (name : Text)
    (held : Value) (isHeld : (empty.set word (.number x)).get? name = some held) :
    ∃ y, held = .number y ∧ y.isFinite = true := by
  rw [get?_set] at isHeld
  by_cases same : name = word
  · rw [if_pos same] at isHeld
    cases isHeld
    exact ⟨x, rfl, finite⟩
  · rw [if_neg same] at isHeld
    cases isHeld

/-- The variable `x` with the number `-2`. -/
def minusTwo : Variables :=
  empty.set ['x'] (.number (-2))

/-- The formula `3*x` at `x = -2`: the sign becomes an operand of the product. -/
theorem evaluate_three_times_minusTwo :
    Token.ofText "3*x".toList =
        .ok [.number ['3'], .operator .mul, .name ['x'], .endMark] ∧
      Expr.ofTokens [.number ['3'], .operator .mul, .name ['x'], .endMark] =
        .ok (.binary .mul (.number (Decimal.toFloat ⟨3, 0⟩)) (.name ['x'])) ∧
      minusTwo.Numbers [['x']] ∧ minusTwo.Unbound [] ∧
      (Expr.binary .mul (.number (Decimal.toFloat ⟨3, 0⟩)) (.number (-2))).eval = .ok (-6) := by
  have lexed : Token.ofText "3*x".toList =
      .ok [.number ['3'], .operator .mul, .name ['x'], .endMark] := rfl
  have parsed : Expr.ofTokens [.number ['3'], .operator .mul, .name ['x'], .endMark] =
      .ok (.binary .mul (.number (Decimal.toFloat ⟨3, 0⟩)) (.name ['x'])) :=
    Sum.ofTokens_eq (.product (.times (.leaf (.number ⟨['3'], by decide⟩)) .mul (by decide)
      (.name ['x']))) [] (by decide)
  have numbers : minusTwo.Numbers [['x']] := by
    rintro name isIn value held
    cases List.mem_singleton.mp isIn
    cases held
    exact ⟨-2, rfl, by decide +kernel⟩
  have functions : minusTwo.Unbound [] := nofun
  have value : minusTwo.evaluate "3*x".toList = .ok (-6) := by
    decide +kernel
  have held : minusTwo.get? ['x'] = some (.number (-2)) := rfl
  have nonzero : ((-2 : Float) == 0) = false := by decide +kernel
  refine ⟨lexed, parsed, numbers, functions, ?_⟩
  rcases evaluate_iff_eval_fill minusTwo lexed parsed numbers functions with same | ⟨⟨_, deep⟩, _⟩
  · have filled := (same (-6)).mp value
    rw [Expr.fill, Expr.fill, Expr.fill, held] at filled
    dsimp only at filled
    rw [nonzero] at filled
    exact filled
  · rw [deep] at value
    cases value

end Variables

end Worksheet

/-
**The value of a percentage of a name.**

Where a name with digits at its end stands in front of a percentage, the form is spelled out with
the digits, and what is left of the name stands directly in front of a bracket. If this is the name
of a variable, its value is a number in front of a bracket, which is no expression. If it is not,
the formula calls the function of that name, if there is one. Whatever the whole name stands for is
not looked up.

* `PercentForm.called` is the expression that such a formula is read as;
* `evaluate_percentage_iff`: a percentage of a name has a value exactly if the name is a function's
  name with digits behind it, the function's name is no variable, and the call has the value;
* `evaluate_percentage_round2`: a variable `round2` with 10% added to it.
-/

import Worksheet.Proofs.Expr.Sound
import Worksheet.Proofs.Formula.Meaning
import Worksheet.Proofs.Percent.OfName

namespace Worksheet

namespace Token

/-- Behind a numeral the text is read as the given tokens, the latest first. -/
def ReadBehindNumeral (text : Text) (tokens : List Token) : Prop :=
  ∀ digits found, scan (.number digits, found) text =
    some (.nothing, tokens ++ .number digits.reverse :: found)

/-- A numeral and a text behind it are read one after the other. -/
theorem scan_numeral_append (numeral : Numeral) {text : Text} {tokens : List Token}
    (read : ReadBehindNumeral text tokens) (found : List Token) (rest : Text) :
    scan (.nothing, found) (numeral.digits ++ (text ++ rest)) =
      scan (.nothing, tokens ++ .number numeral.digits :: found) rest := by
  obtain ⟨parts, ⟨c, isIn, -⟩, -⟩ := numeral.good
  rw [scan_append, scan_numeral found rfl parts (List.ne_nil_of_mem isIn), List.append_nil,
    Option.bind_some, scan_append, read, List.reverse_reverse, Option.bind_some]

/-- A name and a bracket behind it are read one after the other. -/
theorem scan_name_openBracket {name : Text} (isName : Text.isName name = true) (rest : Text) :
    scan (.nothing, []) (name ++ '(' :: rest) =
      scan (.nothing, [.openBracket, .name name]) rest := by
  have bracket : step (.name name.reverse) [] '(' =
      some (.nothing, [.openBracket, .name name.reverse.reverse]) := rfl
  rw [scan_append, scan_name [] rfl isName, Option.bind_some, scan_cons]
  show (step (.name name.reverse) [] '(').bind _ = _
  rw [bracket, List.reverse_reverse, Option.bind_some]

/-- No expression is a text that ends with a numeral and a bracket that opens behind it. -/
theorem not_reads_of_numeral {text rest digits : Text} {earlier : List Token}
    (read : scan (.nothing, []) text = some (.number digits, earlier)) (sum : Grammar.Sum) :
    ¬ Reads (text ++ '(' :: rest) sum.tokens := by
  rw [reads_iff]
  rintro ⟨word, found, scanned, shape⟩
  rw [scan_append, read, Option.bind_some, scan_cons] at scanned
  have isSuffix : [Token.openBracket, .number digits.reverse] ++ earlier <:+ word.close found :=
    (suffix_of_scan scanned).trans (suffix_close word found)
  refine sum.not_number_openBracket digits.reverse ?_
  rw [shape, ← List.reverse_infix]
  rw [List.reverse_reverse]
  exact (List.prefix_append _ _).isInfix.trans isSuffix.isInfix

end Token

namespace PercentForm

open Grammar

/-! ### What is read -/

theorem add_isSum : Operator.add ∈ [.add, .sub] := by decide

theorem sub_isSum : Operator.sub ∈ [.add, .sub] := by decide

theorem mul_isProduct : Operator.mul ∈ [.mul, .div] := by decide

theorem div_isProduct : Operator.div ∈ [.mul, .div] := by decide

/-- The numeral 100. -/
def hundred : Numeral :=
  ⟨"100".toList, by decide⟩

/-- The phrase of an increase or a decrease behind the name of a function. -/
def signedPhrase (op : Operator) (sign : op ∈ [.add, .sub]) (callee : Text)
    (first second : Numeral) : Sum :=
  let alone (numeral : Numeral) : Sum := .product (.leaf (.number numeral))
  .plus (.product (.leaf (.call callee (.last (alone first))))) op sign
    (.leaf (.brackets (.product (.times
      (.times (.leaf (.brackets (alone first))) .mul mul_isProduct (.brackets (alone second)))
      .div div_isProduct (.number hundred)))))

/-- The phrase that a form is when it is spelled out behind the name of a function. -/
def phrase (form : PercentForm) (callee : Text) (first second : Numeral) : Sum :=
  match form with
  | share =>
    .product (.times (.leaf (.call callee (.last (.product
      (.times (.leaf (.number first)) .div div_isProduct (.number hundred))))))
      .mul mul_isProduct (.number second))
  | increase => signedPhrase .add add_isSum callee first second
  | decrease => signedPhrase .sub sub_isSum callee first second

/-- The expression that a form is read as behind the name of a function: the first operand is what
the function is called with. -/
def called (form : PercentForm) (callee : Text) (first second : Numeral) : Expr :=
  let part : Expr :=
    .binary .div (.binary .mul (.number first.value) (.number second.value)) (.number hundred.value)
  match form with
  | share =>
    .binary .mul
      (.call callee [.binary .div (.number first.value) (.number hundred.value)])
      (.number second.value)
  | increase => .binary .add (.call callee [.number first.value]) part
  | decrease => .binary .sub (.call callee [.number first.value]) part

theorem tree_phrase (form : PercentForm) (callee : Text) (first second : Numeral) :
    (form.phrase callee first second).tree = form.called callee first second := by
  cases form <;>
    simp [phrase, signedPhrase, called, Sum.tree, Product.tree, Leaf.tree, Arguments.trees]

theorem levels_phrase (form : PercentForm) (callee : Text) (first second : Numeral) :
    (form.phrase callee first second).levels ≤ levelLimit := by
  cases form <;>
    simp [phrase, signedPhrase, Sum.levels, Product.levels, Leaf.levels, Arguments.levels,
      Sum.operators, Product.operators, levelLimit]

/-- The tokens of an increase or a decrease behind the first opening bracket. -/
def signedTokens (op : Operator) (first second : Numeral) : List Token :=
  [.number first.digits, .closeBracket, .operator op, .openBracket, .openBracket,
    .number first.digits, .closeBracket, .operator .mul, .openBracket, .number second.digits,
    .closeBracket, .operator .div, .number hundred.digits, .closeBracket]

/-- The tokens of a form that is spelled out, behind the first opening bracket. -/
def tokens (form : PercentForm) (first second : Numeral) : List Token :=
  match form with
  | share =>
    [.number first.digits, .operator .div, .number hundred.digits, .closeBracket, .operator .mul,
      .number second.digits]
  | increase => signedTokens .add first second
  | decrease => signedTokens .sub first second

theorem tokens_phrase (form : PercentForm) (callee : Text) (first second : Numeral) :
    (form.phrase callee first second).tokens =
      .name callee :: .openBracket :: form.tokens first second := by
  cases form <;> rfl

theorem scan_signed {op : Operator} (sign : op ∈ [.add, .sub]) (first second : Numeral)
    (found : List Token) :
    Token.scan (.nothing, found) (first.digits ++ (") ".toList ++ op.symbol :: " ((".toList ++
        (first.digits ++ (") * (".toList ++ (second.digits ++ (") / 100)".toList ++ [])))))) =
      some (.nothing, (signedTokens op first second).reverse ++ found) := by
  have behindFirst : Token.ReadBehindNumeral (") ".toList ++ op.symbol :: " ((".toList)
      [.openBracket, .openBracket, .operator op, .closeBracket] := by
    fin_cases sign <;> exact fun _ _ => rfl
  have behindAgain : Token.ReadBehindNumeral ") * (".toList
      [.openBracket, .operator .mul, .closeBracket] := fun _ _ => rfl
  have behindSecond : Token.ReadBehindNumeral ") / 100)".toList
      [.closeBracket, .number hundred.digits, .operator .div, .closeBracket] := fun _ _ => rfl
  exact (Token.scan_numeral_append first behindFirst _ _).trans <|
    (Token.scan_numeral_append first behindAgain _ _).trans <|
    (Token.scan_numeral_append second behindSecond _ []).trans (Token.scan_nil _)

/-- A form that is spelled out starts with an opening bracket, and its tokens stand behind it,
whatever was read before. -/
theorem scan_spelledOut (form : PercentForm) (first second : Numeral) :
    ∃ rest, form.spelledOut first.digits second.digits = '(' :: rest ∧
      ∀ found, ∃ word back, Token.scan (.nothing, found) rest = some (word, back) ∧
        word.close back = (form.tokens first second).reverse ++ found := by
  cases form with
  | share =>
    obtain ⟨parts, ⟨c, isIn, -⟩, -⟩ := second.good
    have behindFirst : Token.ReadBehindNumeral " / 100) * ".toList
        [.operator .mul, .closeBracket, .number hundred.digits, .operator .div] := fun _ _ => rfl
    refine ⟨first.digits ++ (" / 100) * ".toList ++ second.digits), by simp [spelledOut],
      fun found => ⟨_, _, (Token.scan_numeral_append first behindFirst _ _).trans
        (Token.scan_numeral _ rfl parts (List.ne_nil_of_mem isIn)), ?_⟩⟩
    simp [tokens, OpenWord.close]
  | increase =>
    exact ⟨_, by simp [spelledOut, Operator.symbol],
      fun found => ⟨_, _, scan_signed add_isSum first second found, rfl⟩⟩
  | decrease =>
    exact ⟨_, by simp [spelledOut, Operator.symbol],
      fun found => ⟨_, _, scan_signed sub_isSum first second found, rfl⟩⟩

/-- Spelled out behind a name, a form is read as its phrase. -/
theorem reads_spelledOut (form : PercentForm) {callee : Text} (isName : Text.isName callee = true)
    (first second : Numeral) :
    Token.Reads (callee ++ form.spelledOut first.digits second.digits)
      (form.phrase callee first second).tokens := by
  obtain ⟨rest, text, scanned⟩ := form.scan_spelledOut first second
  obtain ⟨word, back, scanned, closed⟩ := scanned [.openBracket, .name callee]
  rw [text, Token.reads_iff]
  refine ⟨word, back, (Token.scan_name_openBracket isName rest).trans scanned, ?_⟩
  rw [closed, tokens_phrase, List.reverse_append, List.reverse_reverse]
  rfl

/-- The expression has a value only if the function exists. -/
theorem exists_function_of_called {form : PercentForm} {callee : Text} {first second : Numeral}
    {value : Float} (evaluates : (form.called callee first second).eval = .ok value) :
    ∃ function : Function, function.name = callee := by
  obtain ⟨inputs, x, isValue⟩ : ∃ inputs x, (Expr.call callee inputs).eval = .ok x := by
    cases form <;>
      · obtain ⟨⟨x, isValue, -⟩, -⟩ := (Expr.eval_binary_eq_ok_iff _ _ _ _).mp evaluates
        exact ⟨_, x, isValue⟩
  obtain ⟨function, listed, -⟩ := (Expr.eval_call_eq_ok_iff _ _ _).mp isValue
  exact ⟨function, (Function.ofName?_eq_some_iff _ _).mp listed⟩

/-- No word starts with a letter or an underscore where a form is spelled out. -/
theorem isWordStart_of_mem_spelledOut (form : PercentForm) (first second : Numeral) :
    ∀ c ∈ form.spelledOut first.digits second.digits, Text.isWordStart c = false := by
  have noStart (numeral : Numeral) : ∀ c ∈ numeral.digits, Text.isWordStart c = false := by
    intro c isIn
    rw [← Bool.not_eq_true]
    intro start
    have noPart := Token.isNumeralPart_eq_false_of_isWordStart start
    rw [numeral.good.1 c isIn] at noPart
    cases noPart
  have symbols {text : Text} (none : text.all (! Text.isWordStart ·) = true) :
      ∀ c ∈ text, Text.isWordStart c = false := by
    simpa using none
  cases form <;> simp only [spelledOut, List.forall_mem_append, List.forall_mem_cons]
  case share =>
    exact ⟨⟨⟨rfl, noStart first⟩, symbols rfl⟩, noStart second⟩
  all_goals
    exact ⟨⟨⟨⟨⟨⟨rfl, noStart first⟩, symbols rfl⟩, noStart first⟩, symbols rfl⟩, noStart second⟩,
      symbols rfl⟩

end PercentForm

namespace Variables

variable {scope : Variables} {name second : Text}

/-- The value of a form that is spelled out behind a name. -/
theorem evaluateText_substitute_spelledOut
    (numbers : ∀ name held, scope.get? name = some held → ∃ x, held = .number x ∧ x.isFinite = true)
    (form : PercentForm) {callee : Text} (isName : Text.isName callee = true)
    (first second : Numeral) (value : Float) :
    evaluateText (scope.substitute (callee ++ form.spelledOut first.digits second.digits)) =
        .ok value ↔
      scope.get? callee = none ∧ (form.called callee first second).eval = .ok value := by
  obtain ⟨rest, shape, -⟩ := form.scan_spelledOut first second
  have border : ∀ c ∈ (form.spelledOut first.digits second.digits).head?,
      Text.isWordPart c = false := by
    rw [shape]
    rintro c ⟨⟩
    rfl
  rw [substitute_word scope (Text.isWordPart_of_isName isName) (Text.ne_nil_of_isName isName)
    border, substitute_eq_self scope (form.isWordStart_of_mem_spelledOut first second),
    substituteRun, if_pos isName]
  cases bound : scope.get? callee with
  | none =>
    dsimp only
    rw [evaluateText_of_reads (form.reads_spelledOut isName first second)
      (form.levels_phrase callee first second), form.tree_phrase]
    exact (and_iff_right rfl).symm
  | some held =>
    obtain ⟨x, rfl, finite⟩ := numbers callee held bound
    refine iff_of_false (fun evaluates => ?_) fun unbound => Option.some_ne_none _ unbound.1
    obtain ⟨sum, read, -⟩ := exists_of_evaluateText evaluates
    obtain ⟨earlier, readNumber, -⟩ := scan_toText finite []
    rw [shape] at read
    exact Token.not_reads_of_numeral readNumber sum read

/-- **A percentage of a name has a value only where the name is taken apart.** Over finite numbers,
a form of percentage behind a name has a value exactly if the name is the name of a function with
digits behind it, the function's name is no variable, and calling the function with these digits
gives a value; that is the value then. -/
theorem evaluate_percentage_iff (form : PercentForm)
    (numbers : ∀ name held, scope.get? name = some held → ∃ x, held = .number x ∧ x.isFinite = true)
    (isName : Text.isName name = true) (spacing : Spacing) (operand : IsOperand second)
    (value : Float) :
    scope.evaluate (name ++ form.behind spacing second) = .ok value ↔
      scope.get? name.stem = none ∧ ∃ (function : Function) (first other : Numeral),
        function.name = name.stem ∧ first.digits = name.lastDigits ∧ other.digits = second ∧
          (form.called function.name first other).eval = .ok value := by
  rw [evaluate]
  by_cases digits : name.lastDigits = []
  · rw [spellOutPercentages_of_letter isName digits form spacing operand]
    refine iff_of_false (fun evaluates => ?_) ?_
    · obtain ⟨sum, read, -⟩ := exists_of_evaluateText evaluates
      obtain ⟨word, found, scanned, -⟩ := (Token.reads_iff _ _).mp read
      have percent : '%' ∈ form.behind spacing second :=
        form.marks_subset_behind spacing second (by cases form <;> decide)
      exact Token.percent_notMem_of_scan scanned
        (mem_substitute scope rfl (List.mem_append_right _ percent))
    · rintro ⟨-, function, first, other, -, isDigits, -⟩
      exact absurd (isDigits.trans digits) first.digits_ne_nil
  · rw [spellOutPercentages_of_digits isName digits form spacing operand]
    have firstOperand := isOperand_digits Text.isDigit_of_mem_lastDigits digits
    obtain ⟨first, isFirst⟩ := IsOperand.exists_numeral firstOperand
    obtain ⟨other, rfl⟩ := operand.exists_numeral
    rw [← isFirst, evaluateText_substitute_spelledOut numbers form (Text.isName_stem isName)]
    refine and_congr_right fun _ => ⟨fun evaluates => ?_, ?_⟩
    · obtain ⟨function, isFunction⟩ := PercentForm.exists_function_of_called evaluates
      exact ⟨function, first, other, isFunction, rfl, rfl, isFunction ▸ evaluates⟩
    · rintro ⟨function, again, otherAgain, isFunction, isAgain, isOther, evaluates⟩
      rw [← isFunction, ← Numeral.eq_of_digits isAgain, ← Numeral.eq_of_digits isOther]
      exact evaluates

/-- One space wherever white space may stand. -/
def oneSpace : Spacing :=
  have isBlank : ∀ c ∈ [' '], Text.isBlank c = true := List.forall_mem_singleton.mpr rfl
  ⟨[' '], [' '], [' '], isBlank, isBlank, isBlank⟩

/-- The formula `x2 - .5%` has no value at `x = -2`. -/
theorem evaluate_percentage_x2 :
    (∀ name held, minusTwo.get? name = some held → ∃ x, held = .number x ∧ x.isFinite = true) ∧
      Text.isName "x2".toList = true ∧ IsOperand ".5".toList ∧
      "x2 - .5%".toList = "x2".toList ++ PercentForm.decrease.behind oneSpace ".5".toList ∧
      ∀ value, minusTwo.evaluate "x2 - .5%".toList ≠ .ok value := by
  have finite : (-2 : Float).isFinite = true := by decide +kernel
  have numbers : ∀ name held, minusTwo.get? name = some held →
      ∃ x, held = .number x ∧ x.isFinite = true := numbers_single ['x'] finite
  have operand : IsOperand ".5".toList :=
    ⟨[], ['.'], ['5'], rfl, List.forall_mem_nil _, Or.inr rfl, List.forall_mem_singleton.mpr rfl,
      List.cons_ne_nil _ _⟩
  have isName : Text.isName "x2".toList = true := rfl
  have text : "x2 - .5%".toList =
      "x2".toList ++ PercentForm.decrease.behind oneSpace ".5".toList := rfl
  refine ⟨numbers, isName, operand, text, fun value evaluates => ?_⟩
  rw [text] at evaluates
  obtain ⟨unbound, -⟩ :=
    (evaluate_percentage_iff .decrease numbers isName oneSpace operand value).mp evaluates
  have held : minusTwo.get? (Text.stem "x2".toList) = some (.number (-2)) := rfl
  rw [held] at unbound
  cases unbound

/-- The variable `round2` with the number `100`. -/
def round2 : Variables :=
  empty.set "round2".toList (.number 100)

/-- Ten percent added to `round2` are the rounded 2 and ten percent of 2: the value of the variable
is not looked at. -/
theorem evaluate_percentage_round2 :
    (∀ name held, round2.get? name = some held → ∃ x, held = .number x ∧ x.isFinite = true) ∧
      Text.isName "round2".toList = true ∧ IsOperand "10".toList ∧
      "round2 + 10%".toList = "round2".toList ++ PercentForm.increase.behind oneSpace "10".toList ∧
      round2.evaluate "round2 + 10%".toList = .ok 2.2 := by
  have finite : (100 : Float).isFinite = true := by decide +kernel
  have digits : ∀ c ∈ ['1', '0'], c.isDigit = true := by simp
  exact ⟨numbers_single _ finite, rfl, isOperand_digits digits (List.cons_ne_nil _ _), rfl,
    by decide +kernel⟩

end Variables

end Worksheet

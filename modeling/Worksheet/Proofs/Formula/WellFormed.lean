/-
**When substitution makes an expression of a text that is none.**

Values are put into the text before it is read, so what stands beside a variable can grow together
with its value. There are two ways. A point takes the digits of a value into its numeral, and the
sign of a negative value behind an operand is read as an operator. Where neither happens, the phrase
that is read after substitution has a phrase behind it that spells the text as it was written.

* `Variables.SignsApart`: no variable below zero stands directly behind an operand;
* `exists_between` finds the token between two phrases again, and `Sum.exists_of_tokens_eq` takes the
  values out of a whole phrase;
* `wellFormed_iff_of_evaluate`: among the formulas that have a value, those that are expressions as
  they are written are the ones without a variable beside a point or a sign behind an operand;
* `evaluate_beside_variable`: a formula of either kind.
-/

import Worksheet.Proofs.Formula.Meaning

namespace Worksheet

namespace Variables

/-- The second token may stand directly behind the first: it is no variable below zero behind an
operand. -/
def SignApart (scope : Variables) (first second : Token) : Prop :=
  first.endsOperand = true → ∀ name, second = .name name → ¬ scope.IsNegative name

/-- No variable below zero stands directly behind an operand. -/
def SignsApart (scope : Variables) (tokens : List Token) : Prop :=
  tokens.IsChain scope.SignApart

end Variables

namespace Grammar

variable {scope : Variables}

/-! ### Tokens in place of tokens -/

/-- What takes the place of a token: itself, or for a variable a numeral, with a sign if the
variable is below zero. -/
theorem tokensFor_cases (scope : Variables) (token : Token) :
    scope.tokensFor token = [token] ∨
      ∃ name digits, token = .name name ∧
        (scope.tokensFor token = [.number digits] ∨
          scope.IsNegative name ∧ scope.tokensFor token = [.operator .sub, .number digits]) := by
  cases token with
  | name word =>
    unfold Variables.tokensFor
    dsimp only
    cases held : scope.get? word with
    | none => exact Or.inl rfl
    | some value =>
      cases value with
      | date day => exact Or.inl rfl
      | number x =>
        refine Or.inr ⟨word, (Numeral.ofMagnitude x).digits, rfl, ?_⟩
        dsimp only
        unfold numberTokens
        by_cases negative : x < 0
        · rw [if_pos negative]
          exact Or.inr ⟨⟨x, held, negative⟩, rfl⟩
        · rw [if_neg negative]
          exact Or.inl rfl
  | _ => exact Or.inl rfl

/-- What takes the place of a token is one token, or a sign with the numeral of a variable below
zero. -/
theorem tokensFor_single_or_signed (scope : Variables) (token : Token) :
    (∃ only, scope.tokensFor token = [only]) ∨
      ∃ digits, scope.tokensFor token = [.operator .sub, .number digits] := by
  rcases tokensFor_cases scope token with same | ⟨_, digits, _, plain | ⟨_, signed⟩⟩
  · exact Or.inl ⟨token, same⟩
  · exact Or.inl ⟨.number digits, plain⟩
  · exact Or.inr ⟨digits, signed⟩

variable {body front back : List Token} {token : Token}

/-- The first token before substitution, by the first one after it. -/
theorem cons_of_flatMap_eq (shape : body.flatMap scope.tokensFor = token :: back) :
    ∃ first rest, body = first :: rest ∧
      (first = token ∧ rest.flatMap scope.tokensFor = back ∨
        ∃ name digits, first = .name name ∧
          (token = .number digits ∧ rest.flatMap scope.tokensFor = back ∨
            scope.IsNegative name ∧ token = .operator .sub ∧
              .number digits :: rest.flatMap scope.tokensFor = back)) := by
  cases body with
  | nil => cases shape
  | cons first rest =>
    rw [List.flatMap_cons] at shape
    refine ⟨first, rest, rfl, ?_⟩
    rcases tokensFor_cases scope first with same | ⟨name, digits, isName, plain | signed⟩
    · rw [same] at shape
      cases shape
      exact Or.inl ⟨rfl, rfl⟩
    · rw [plain] at shape
      cases shape
      exact Or.inr ⟨name, digits, isName, Or.inl ⟨rfl, rfl⟩⟩
    · rw [signed.2] at shape
      cases shape
      exact Or.inr ⟨name, digits, isName, Or.inr ⟨signed.1, rfl, rfl⟩⟩

theorem eq_nil_of_flatMap_eq (shape : body.flatMap scope.tokensFor = []) : body = [] := by
  cases body with
  | nil => rfl
  | cons first rest =>
    rw [List.flatMap_cons, List.append_eq_nil_iff] at shape
    rcases tokensFor_single_or_signed scope first with ⟨only, single⟩ | ⟨digits, signed⟩
    · rw [single] at shape
      cases shape.1
    · rw [signed] at shape
      cases shape.1

/-- A token that is no numeral and no sign was there before. -/
theorem cons_of_flatMap_eq_of_ne (shape : body.flatMap scope.tokensFor = token :: back)
    (noNumber : ∀ digits, token ≠ .number digits) (noSign : token ≠ .operator .sub) :
    ∃ rest, body = token :: rest ∧ rest.flatMap scope.tokensFor = back := by
  obtain ⟨first, rest, rfl, ⟨rfl, same⟩ | ⟨_, digits, _, ⟨number, _⟩ | ⟨_, sign, _⟩⟩⟩ :=
    cons_of_flatMap_eq shape
  · exact ⟨rest, rfl, same⟩
  · exact absurd number (noNumber digits)
  · exact absurd sign noSign

/-- Behind the end of an operand the tokens can be cut before substitution as well: only a sign and
its numeral belong together. -/
theorem append_of_flatMap_eq (ends : front = [] ∨ EndsOperand front)
    (shape : body.flatMap scope.tokensFor = front ++ back) :
    ∃ first rest, body = first ++ rest ∧ first.flatMap scope.tokensFor = front ∧
      rest.flatMap scope.tokensFor = back := by
  induction body generalizing front with
  | nil =>
    obtain ⟨rfl, rfl⟩ := List.append_eq_nil_iff.mp shape.symm
    exact ⟨[], [], rfl, rfl, rfl⟩
  | cons token body ih =>
    cases front with
    | nil => exact ⟨[], token :: body, rfl, rfl, shape⟩
    | cons next others =>
      have ends := (ends.resolve_left (List.cons_ne_nil _ _)).tail
      rw [List.flatMap_cons] at shape
      rcases tokensFor_single_or_signed scope token with ⟨only, single⟩ | ⟨digits, signed⟩
      · rw [single] at shape
        obtain ⟨rfl, later⟩ := List.cons.inj shape
        obtain ⟨first, rest, rfl, rfl, behind⟩ := ih (ends.imp_left And.left) later
        refine ⟨token :: first, rest, rfl, ?_, behind⟩
        rw [List.flatMap_cons, single]
        rfl
      · rw [signed] at shape
        obtain ⟨rfl, later⟩ := List.cons.inj shape
        rcases ends with ⟨_, isEnd⟩ | ends
        · cases isEnd
        · cases others with
          | nil =>
            obtain ⟨_, _, empty, _⟩ := ends
            exact absurd empty (by simp)
          | cons numeral others =>
            obtain ⟨rfl, last⟩ := List.cons.inj later
            obtain ⟨first, rest, rfl, rfl, behind⟩ := ih (ends.tail.imp_left And.left) last
            refine ⟨token :: first, rest, rfl, ?_, behind⟩
            rw [List.flatMap_cons, signed]
            rfl

/-- Tokens that end with an operand after substitution did so before. -/
theorem endsOperand_of_flatMap (ends : EndsOperand (body.flatMap scope.tokensFor)) :
    EndsOperand body := by
  obtain ⟨others, last, shape, isEnd⟩ := ends
  rcases List.eq_nil_or_concat body with rfl | ⟨front, token, rfl⟩
  · exact absurd shape (by simp)
  · rw [List.concat_eq_append] at shape ⊢
    refine ⟨front, token, rfl, ?_⟩
    rcases tokensFor_cases scope token with same | ⟨name, _, rfl, _⟩
    · rw [List.flatMap_append, List.flatMap_singleton, same] at shape
      cases (List.append_inj' shape rfl).2
      exact isEnd
    · rfl

/-- **Two phrases with a token between them** were two such phrases before substitution: behind an
operand no sign of a value can be the token between. -/
theorem exists_between (ends : EndsOperand front) (apart : scope.SignsApart body)
    (shape : body.flatMap scope.tokensFor = front ++ token :: back)
    (noNumber : ∀ digits, token ≠ .number digits) :
    ∃ first rest, body = first ++ token :: rest ∧ first.flatMap scope.tokensFor = front ∧
      rest.flatMap scope.tokensFor = back ∧ scope.SignsApart first ∧ scope.SignsApart rest := by
  obtain ⟨first, behind, rfl, rfl, later⟩ := append_of_flatMap_eq (Or.inr ends) shape
  obtain ⟨apartFirst, apartBehind, border⟩ := List.isChain_append.mp apart
  obtain ⟨next, rest, rfl, ⟨rfl, same⟩ | ⟨name, _, rfl, ⟨number, _⟩ | ⟨negative, _⟩⟩⟩ :=
    cons_of_flatMap_eq later
  · exact ⟨first, rest, rfl, rfl, same, apartFirst, apartBehind.tail⟩
  · exact absurd number (noNumber _)
  · obtain ⟨others, last, rfl, isEnd⟩ := endsOperand_of_flatMap ends
    exact absurd negative (border last (by simp) (.name name) rfl isEnd name rfl)

/-! ### Phrases before substitution -/

/-- A leaf that begins with a numeral is the numeral. -/
theorem Leaf.eq_number_of_tokens (leaf : Leaf) {digits : Text}
    (shape : leaf.tokens = .number digits :: back) :
    ∃ numeral, leaf = .number numeral ∧ back = [] := by
  cases leaf with
  | number numeral =>
    cases shape
    exact ⟨numeral, rfl, rfl⟩
  | name _ => cases shape
  | brackets _ => cases shape
  | minus _ => cases shape
  | plus _ => cases shape
  | emptyCall _ => cases shape
  | call _ _ => cases shape

mutual

theorem Leaf.exists_of_tokens_eq : ∀ (leaf : Leaf) {body : List Token},
    body.flatMap scope.tokensFor = leaf.tokens → scope.SignsApart body →
      ∃ before : Leaf, before.tokens = body ∧ before.levels ≤ leaf.levels
  | .number numeral, body, shape, _ => by
    obtain ⟨first, rest, rfl, ⟨rfl, none⟩ | ⟨name, _, rfl, ⟨_, none⟩ | ⟨_, sign, _⟩⟩⟩ :=
      cons_of_flatMap_eq shape
    · rw [eq_nil_of_flatMap_eq none]
      exact ⟨.number numeral, rfl, Nat.le_refl _⟩
    · rw [eq_nil_of_flatMap_eq none]
      exact ⟨.name name, rfl, Nat.le_refl _⟩
    · cases sign
  | .name word, body, shape, _ => by
    obtain ⟨rest, rfl, none⟩ := cons_of_flatMap_eq_of_ne shape nofun nofun
    rw [eq_nil_of_flatMap_eq none]
    exact ⟨.name word, rfl, Nat.le_refl _⟩
  | .brackets inner, body, shape, apart => by
    obtain ⟨rest, rfl, inside⟩ := cons_of_flatMap_eq_of_ne shape nofun nofun
    obtain ⟨first, empty, rfl, content, none, apartFirst, _⟩ :=
      exists_between inner.exists_last apart.tail inside nofun
    obtain ⟨before, rfl, _, fewer⟩ := inner.exists_of_tokens_eq content apartFirst
    rw [eq_nil_of_flatMap_eq none]
    exact ⟨.brackets before, rfl, Nat.add_le_add_left fewer 1⟩
  | .minus operand, body, shape, apart => by
    obtain ⟨first, rest, rfl, ⟨rfl, inside⟩ | ⟨name, digits, rfl, ⟨number, _⟩ | ⟨_, _, value⟩⟩⟩ :=
      cons_of_flatMap_eq shape
    · obtain ⟨before, rfl, fewer⟩ := operand.exists_of_tokens_eq inside apart.tail
      exact ⟨.minus before, rfl, Nat.add_le_add_left fewer 1⟩
    · cases number
    · -- The sign of a value: the operand that it was read in front of is the value's numeral.
      obtain ⟨numeral, rfl, none⟩ := operand.eq_number_of_tokens value.symm
      rw [eq_nil_of_flatMap_eq none]
      exact ⟨.name name, rfl, Nat.le_succ 1⟩
  | .plus operand, body, shape, apart => by
    obtain ⟨rest, rfl, inside⟩ := cons_of_flatMap_eq_of_ne shape nofun nofun
    obtain ⟨before, rfl, fewer⟩ := operand.exists_of_tokens_eq inside apart.tail
    exact ⟨.plus before, rfl, Nat.add_le_add_left fewer 1⟩
  | .emptyCall function, body, shape, _ => by
    obtain ⟨rest, rfl, behind⟩ := cons_of_flatMap_eq_of_ne shape nofun nofun
    obtain ⟨rest, rfl, last⟩ := cons_of_flatMap_eq_of_ne behind nofun nofun
    obtain ⟨rest, rfl, none⟩ := cons_of_flatMap_eq_of_ne last nofun nofun
    rw [eq_nil_of_flatMap_eq none]
    exact ⟨.emptyCall function, rfl, Nat.le_refl _⟩
  | .call function arguments, body, shape, apart => by
    obtain ⟨rest, rfl, behind⟩ := cons_of_flatMap_eq_of_ne shape nofun nofun
    obtain ⟨rest, rfl, inside⟩ := cons_of_flatMap_eq_of_ne behind nofun nofun
    obtain ⟨before, rfl, fewer⟩ := arguments.exists_of_tokens_eq inside apart.tail.tail
    exact ⟨.call function before, rfl, Nat.add_le_add_left fewer 1⟩

theorem Product.exists_of_tokens_eq : ∀ (product : Product) {body : List Token},
    body.flatMap scope.tokensFor = product.tokens → scope.SignsApart body →
      ∃ before : Product, before.tokens = body ∧ before.operators = product.operators ∧
        before.levels ≤ product.levels
  | .leaf only, body, shape, apart => by
    obtain ⟨before, rfl, fewer⟩ := only.exists_of_tokens_eq shape apart
    exact ⟨.leaf before, rfl, rfl, Nat.add_le_add_left fewer 1⟩
  | .times left op sign right, body, shape, apart => by
    obtain ⟨first, rest, rfl, ahead, behind, apartFirst, apartRest⟩ :=
      exists_between left.exists_last apart shape nofun
    obtain ⟨before, rfl, same, fewer⟩ := left.exists_of_tokens_eq ahead apartFirst
    obtain ⟨last, rfl, fewerLast⟩ := right.exists_of_tokens_eq behind apartRest
    refine ⟨.times before op sign last, rfl, congrArg (· + 1) same, ?_⟩
    rw [Product.levels, Product.levels, same]
    omega

/-- **A phrase read after substitution** spells, with names in place of the values, the tokens
before it. -/
theorem Sum.exists_of_tokens_eq : ∀ (sum : Sum) {body : List Token},
    body.flatMap scope.tokensFor = sum.tokens → scope.SignsApart body →
      ∃ before : Sum, before.tokens = body ∧ before.operators = sum.operators ∧
        before.levels ≤ sum.levels
  | .product only, body, shape, apart => by
    obtain ⟨before, rfl, same, fewer⟩ := only.exists_of_tokens_eq shape apart
    exact ⟨.product before, rfl, same, fewer⟩
  | .plus left op sign right, body, shape, apart => by
    obtain ⟨first, rest, rfl, ahead, behind, apartFirst, apartRest⟩ :=
      exists_between left.exists_last apart shape nofun
    obtain ⟨before, rfl, same, fewer⟩ := left.exists_of_tokens_eq ahead apartFirst
    obtain ⟨last, rfl, _, fewerLast⟩ := right.exists_of_tokens_eq behind apartRest
    refine ⟨.plus before op sign last, rfl, congrArg (· + 1) same, ?_⟩
    rw [Sum.levels, Sum.levels, same]
    omega

theorem Arguments.exists_of_tokens_eq : ∀ (arguments : Arguments) {body : List Token},
    body.flatMap scope.tokensFor = arguments.tokens → scope.SignsApart body →
      ∃ before : Arguments, before.tokens = body ∧ before.levels ≤ arguments.levels
  | .last argument, body, shape, apart => by
    obtain ⟨first, empty, rfl, ahead, none, apartFirst, _⟩ :=
      exists_between argument.exists_last apart shape nofun
    obtain ⟨before, rfl, _, fewer⟩ := argument.exists_of_tokens_eq ahead apartFirst
    rw [eq_nil_of_flatMap_eq none]
    exact ⟨.last before, rfl, fewer⟩
  | .more argument others, body, shape, apart => by
    obtain ⟨first, rest, rfl, ahead, behind, apartFirst, apartRest⟩ :=
      exists_between argument.exists_last apart shape nofun
    obtain ⟨before, rfl, _, fewer⟩ := argument.exists_of_tokens_eq ahead apartFirst
    obtain ⟨last, rfl, fewerLater⟩ := others.exists_of_tokens_eq behind apartRest
    refine ⟨.more before last, rfl, ?_⟩
    rw [Arguments.levels, Arguments.levels]
    omega

end

end Grammar

namespace Variables

open Grammar

variable {formula : Text} {body : List Token}

/-! ### Formulas that are expressions as they are written -/

/-- The tokens of a text are determined. -/
theorem reads_unique {other : List Token} (read : Token.Reads formula body)
    (again : Token.Reads formula other) : body = other := by
  have same : body ++ [Token.endMark] = other ++ [Token.endMark] :=
    Except.ok.inj (read.1.symm.trans again.1)
  exact List.append_cancel_right same

/-- In an expression no name at all stands behind an operand, so no variable below zero does. -/
theorem signsApart_tokens (scope : Variables) (sum : Sum) : scope.SignsApart sum.tokens := by
  refine sum.apart.imp fun first second apart ends name isName => ?_
  exact absurd isName (apart ends name)

/-- **Substitution can make an expression of a text that is none.** Let the variables be finite
numbers, and let a formula without percentages have a value. Then it is an expression as it is
written exactly if no variable stands beside a point in it and no variable below zero directly
behind an operand. -/
theorem wellFormed_iff_of_evaluate (scope : Variables) {formula : Text} {value : Float}
    (plain : '%' ∉ formula)
    (numbers : ∀ name held, scope.get? name = some held →
      ∃ x, held = .number x ∧ x.isFinite = true)
    (evaluates : scope.evaluate formula = .ok value) :
    (∃ tokens tree, Token.ofText formula = .ok tokens ∧ Expr.ofTokens tokens = .ok tree) ↔
      ¬ scope.TouchesPoint formula ∧
        ∀ body, Token.Reads formula body → scope.SignsApart body := by
  constructor
  · rintro ⟨tokens, tree, lexed, parsed⟩
    obtain ⟨sum, read, _, _⟩ := exists_of_reads lexed parsed
    refine ⟨not_touchesPoint read sum.not_gluedIn, fun body again => ?_⟩
    rw [reads_unique again read]
    exact signsApart_tokens scope sum
  · rintro ⟨noPoint, signs⟩
    -- What is evaluated is the text after substitution, so a phrase of the grammar spells that.
    rw [evaluate, spellOutPercentages_eq_self plain] at evaluates
    obtain ⟨sum, readLater, enough⟩ := exists_of_evaluateText evaluates
    have inText : scope.NumbersIn formula := fun _ name _ held _ _ => numbers name held
    obtain ⟨body, read, same⟩ := (reads_substitute noPoint inText).2 _ readLater
    rcases same with shape | ⟨_, glued⟩
    · obtain ⟨before, rfl, _, fewer⟩ := sum.exists_of_tokens_eq shape.symm (signs body read)
      exact ⟨_, _, read.1, before.ofTokens_eq [] (fewer.trans enough)⟩
    · exact absurd glued sum.not_gluedIn

/-- All that `minusTwo` holds is the number. -/
theorem numbers_minusTwo (name : Text) (held : Value) (isHeld : minusTwo.get? name = some held) :
    ∃ x, held = .number x ∧ x.isFinite = true :=
  numbers_single ['x'] (by decide +kernel) name held isHeld

/-- The formula `5-x` at `x = -2`, with the sign behind an operator. -/
theorem wellFormed_five_minus_minusTwo :
    '%' ∉ "5-x".toList ∧ minusTwo.evaluate "5-x".toList = .ok 7 ∧
      ¬ minusTwo.TouchesPoint "5-x".toList ∧
      ∀ body, Token.Reads "5-x".toList body → minusTwo.SignsApart body := by
  have plain : '%' ∉ "5-x".toList := by decide
  have value : minusTwo.evaluate "5-x".toList = .ok 7 := by decide +kernel
  have parsed : Expr.ofTokens [.number ['5'], .operator .sub, .name ['x'], .endMark] =
      .ok (.binary .sub (.number (Decimal.toFloat ⟨5, 0⟩)) (.name ['x'])) :=
    Sum.ofTokens_eq (.plus (.product (.leaf (.number ⟨['5'], by decide⟩))) .sub (by decide)
      (.leaf (.name ['x']))) [] (by decide)
  exact ⟨plain, value,
    (wellFormed_iff_of_evaluate minusTwo plain numbers_minusTwo value).mp ⟨_, _, rfl, parsed⟩⟩

/-- At `x = -2` the formulas `5 x` and `x.5` have the values `3` and `-2.5`, and neither of them is
an expression: the one has two operands side by side, the other a point behind a name. -/
theorem evaluate_beside_variable :
    (∀ name held, minusTwo.get? name = some held → ∃ x, held = .number x ∧ x.isFinite = true) ∧
      ('%' ∉ "5 x".toList ∧ minusTwo.evaluate "5 x".toList = .ok 3 ∧
        ¬ ∃ tokens tree, Token.ofText "5 x".toList = .ok tokens ∧
          Expr.ofTokens tokens = .ok tree) ∧
      ('%' ∉ "x.5".toList ∧ minusTwo.evaluate "x.5".toList = .ok (-2.5) ∧
        ¬ ∃ tokens tree, Token.ofText "x.5".toList = .ok tokens ∧
          Expr.ofTokens tokens = .ok tree) := by
  refine ⟨numbers_minusTwo, ⟨by decide, by decide +kernel, ?_⟩, by decide, by decide +kernel, ?_⟩
  · rintro ⟨tokens, tree, lexed, parsed⟩
    obtain ⟨sum, read, _, _⟩ := exists_of_reads lexed parsed
    refine sum.not_gluedIn ⟨['5'], ['x'], ?_⟩
    have fiveX : Token.Reads "5 x".toList [.number ['5'], .name ['x']] := ⟨rfl, by decide⟩
    rw [← reads_unique fiveX read]
  · rintro ⟨tokens, _, lexed, _⟩
    cases lexed

end Variables

end Worksheet

/-
**Values in a phrase.**

Values of variables are put into the phrases of the grammar, where a number below zero is a sign and
a numeral. This commutes with all that is said of a phrase: its tokens are the tokens with values in
place of names, its tree has the value of the tree with the variables looked up, and it takes the
same levels or one more.

* `Expr.fill` puts the numbers that variables hold into a tree, and `Sum.fill` their numerals into a
  phrase;
* `Sum.tokens_fill`, `Sum.eval_fill` and `Sum.levels_fill` compare the phrase before and after;
* `Sum.mem_of_name_mem`: a name in the tokens stands for a value or is called in the tree.
-/

import Worksheet.Proofs.Expr.Grammar
import Worksheet.Proofs.Formula.Simulation

namespace Worksheet

/-! ### Names in a tree -/

namespace Expr

mutual

/-- The names that stand for values. -/
def names : Expr → List Text
  | number _ => []
  | name word => [word]
  | negate operand => operand.names
  | binary _ left right => left.names ++ right.names
  | call _ arguments => namesOf arguments

/-- The names that stand for values in some trees. -/
def namesOf : List Expr → List Text
  | [] => []
  | first :: others => first.names ++ namesOf others

end

mutual

/-- The names that are called as functions. -/
def callees : Expr → List Text
  | number _ => []
  | name _ => []
  | negate operand => operand.callees
  | binary _ left right => left.callees ++ right.callees
  | call function arguments => function :: calleesOf arguments

/-- The names that are called as functions in some trees. -/
def calleesOf : List Expr → List Text
  | [] => []
  | first :: others => first.callees ++ calleesOf others

end

mutual

/-- The tree with the numbers that variables hold in place of their names, both zeros without a
sign. -/
def fill (scope : Variables) : Expr → Expr
  | number value => number value
  | name word =>
    match scope.get? word with
    | some (.number x) => number (if x == 0 then 0 else x)
    | _ => name word
  | negate operand => negate (operand.fill scope)
  | binary op left right => binary op (left.fill scope) (right.fill scope)
  | call function arguments => call function (fillAll scope arguments)

/-- The trees with the numbers that variables hold in place of their names. -/
def fillAll (scope : Variables) : List Expr → List Expr
  | [] => []
  | first :: others => first.fill scope :: fillAll scope others

end

end Expr

namespace Variables

/-- Those of the names that are variables hold finite numbers. -/
def Numbers (scope : Variables) (names : List Text) : Prop :=
  ∀ name ∈ names, ∀ value, scope.get? name = some value →
    ∃ x, value = .number x ∧ x.isFinite = true

/-- None of the names is a variable. -/
def Unbound (scope : Variables) (names : List Text) : Prop :=
  ∀ name ∈ names, scope.get? name = none

/-- The name is a variable that holds a number below zero. -/
def IsNegative (scope : Variables) (name : Text) : Prop :=
  ∃ x, scope.get? name = some (.number x) ∧ x < 0

end Variables

namespace Grammar

/-! ### Values in a phrase -/

/-- The leaf that a number is written as. -/
def Leaf.ofNumber (x : Float) : Leaf :=
  if x < 0 then .minus (.number (Numeral.ofMagnitude x)) else .number (Numeral.ofMagnitude x)

/-- The leaf that takes the place of a name. -/
def Leaf.ofName (scope : Variables) (word : Text) : Leaf :=
  match scope.get? word with
  | some (.number x) =>
    if x < 0 then .minus (.number (Numeral.ofMagnitude x)) else .number (Numeral.ofMagnitude x)
  | _ => .name word

mutual

/-- The leaf with the values of variables in place of their names. -/
def Leaf.fill (scope : Variables) : Leaf → Leaf
  | .number literal => .number literal
  | .name word => .ofName scope word
  | .brackets inner => .brackets (inner.fill scope)
  | .minus operand => .minus (operand.fill scope)
  | .plus operand => .plus (operand.fill scope)
  | .emptyCall function => .emptyCall function
  | .call function arguments => .call function (arguments.fill scope)

/-- The product with the values of variables in place of their names. -/
def Product.fill (scope : Variables) : Product → Product
  | .leaf only => .leaf (only.fill scope)
  | .times left op sign right => .times (left.fill scope) op sign (right.fill scope)

/-- The sum with the values of variables in place of their names. -/
def Sum.fill (scope : Variables) : Sum → Sum
  | .product only => .product (only.fill scope)
  | .plus left op sign right => .plus (left.fill scope) op sign (right.fill scope)

/-- The arguments with the values of variables in place of their names. -/
def Arguments.fill (scope : Variables) : Arguments → Arguments
  | .last argument => .last (argument.fill scope)
  | .more argument others => .more (argument.fill scope) (others.fill scope)

end

variable {scope : Variables}

/-! ### Tokens -/

theorem Leaf.tokens_ofName (word : Text) :
    (Leaf.ofName scope word).tokens = scope.tokensFor (.name word) := by
  unfold Leaf.ofName Variables.tokensFor
  dsimp only
  rcases scope.get? word with _ | x | day
  · rfl
  · dsimp only
    unfold numberTokens
    split <;> rfl
  · rfl

/-- A function that is no variable stays. -/
theorem tokensFor_function {function : Text} {others : List Text}
    (unbound : scope.Unbound (function :: others)) :
    scope.tokensFor (.name function) = [.name function] := by
  unfold Variables.tokensFor
  dsimp only
  rw [unbound function List.mem_cons_self]

mutual

theorem Leaf.tokens_fill : ∀ leaf : Leaf, scope.Unbound leaf.tree.callees →
    (leaf.fill scope).tokens = leaf.tokens.flatMap scope.tokensFor
  | .number _, _ => rfl
  | .name word, _ => by
    rw [Leaf.fill, Leaf.tokens_ofName, Leaf.tokens, List.flatMap_singleton]
  | .brackets inner, unbound => by
    rw [Leaf.fill, Leaf.tokens, inner.tokens_fill unbound, Leaf.tokens, List.flatMap_cons,
      List.flatMap_append]
    rfl
  | .minus operand, unbound => by
    rw [Leaf.fill, Leaf.tokens, operand.tokens_fill unbound, Leaf.tokens, List.flatMap_cons]
    rfl
  | .plus operand, unbound => by
    rw [Leaf.fill, Leaf.tokens, operand.tokens_fill unbound, Leaf.tokens, List.flatMap_cons]
    rfl
  | .emptyCall function, unbound => by
    rw [Leaf.fill, Leaf.tokens, List.flatMap_cons, tokensFor_function unbound]
    rfl
  | .call function arguments, unbound => by
    have inArguments : scope.Unbound (Expr.calleesOf arguments.trees) := fun name isIn =>
      unbound name (List.mem_cons_of_mem _ isIn)
    rw [Leaf.fill, Leaf.tokens, arguments.tokens_fill inArguments, Leaf.tokens, List.flatMap_cons,
      List.flatMap_cons, tokensFor_function unbound]
    rfl

theorem Product.tokens_fill : ∀ product : Product, scope.Unbound product.tree.callees →
    (product.fill scope).tokens = product.tokens.flatMap scope.tokensFor
  | .leaf only, unbound => only.tokens_fill unbound
  | .times left op _ right, unbound => by
    obtain ⟨inLeft, inRight⟩ := List.forall_mem_append.mp unbound
    rw [Product.fill, Product.tokens, left.tokens_fill inLeft, right.tokens_fill inRight,
      Product.tokens, List.flatMap_append, List.flatMap_cons]
    rfl

/-- **The tokens of a sum with values** are the tokens of the sum with values. -/
theorem Sum.tokens_fill : ∀ sum : Sum, scope.Unbound sum.tree.callees →
    (sum.fill scope).tokens = sum.tokens.flatMap scope.tokensFor
  | .product only, unbound => only.tokens_fill unbound
  | .plus left op _ right, unbound => by
    obtain ⟨inLeft, inRight⟩ := List.forall_mem_append.mp unbound
    rw [Sum.fill, Sum.tokens, left.tokens_fill inLeft, right.tokens_fill inRight,
      Sum.tokens, List.flatMap_append, List.flatMap_cons]
    rfl

theorem Arguments.tokens_fill : ∀ arguments : Arguments,
    scope.Unbound (Expr.calleesOf arguments.trees) →
    (arguments.fill scope).tokens = arguments.tokens.flatMap scope.tokensFor
  | .last argument, unbound => by
    have inArgument : scope.Unbound argument.tree.callees :=
      (List.forall_mem_append.mp unbound).1
    rw [Arguments.fill, Arguments.tokens, argument.tokens_fill inArgument, Arguments.tokens,
      List.flatMap_append]
    rfl
  | .more argument others, unbound => by
    obtain ⟨inArgument, inOthers⟩ := List.forall_mem_append.mp unbound
    rw [Arguments.fill, Arguments.tokens, argument.tokens_fill inArgument,
      others.tokens_fill inOthers, Arguments.tokens, List.flatMap_append, List.flatMap_cons]
    rfl

end

/-! ### Values -/

theorem isFinite_value_ofMagnitude {x : Float} (finite : x.isFinite = true) :
    (Numeral.ofMagnitude x).value.isFinite = true := by
  have below := (Binary.isFinite_iff x).mp finite
  rw [Numeral.value_ofMagnitude finite, Binary.isFinite_iff, Binary.magnitudeBits,
    Binary.toNat_ofBits_magnitudeBits finite]
  exact Nat.lt_of_le_of_lt (Nat.mod_le _ _) below

/-- A sign and the numeral of a negative number have the value of the number. -/
theorem eval_negate_ofMagnitude {x : Float} (finite : x.isFinite = true) (negative : x < 0) :
    (Expr.negate (.number (Numeral.ofMagnitude x).value)).eval = .ok x := by
  rw [Expr.eval, Expr.eval, requireFinite, if_pos (isFinite_value_ofMagnitude finite)]
  dsimp only
  rw [Numeral.neg_value_ofMagnitude finite negative]

/-- The leaf that a finite number is written as has the value of the number, a zero without sign. -/
theorem Leaf.eval_ofNumber {x : Float} (finite : x.isFinite = true) :
    (Leaf.ofNumber x).tree.eval = .ok (if x == 0 then 0 else x) := by
  unfold Leaf.ofNumber
  by_cases negative : x < 0
  · have nonzero : ¬ (x == 0) = true := fun zero =>
      ((Binary.lt_zero_iff finite).mp negative).2 ((Binary.beq_zero_iff finite).mp zero)
    rw [if_pos negative, if_neg nonzero, Leaf.tree, Leaf.tree_numeral,
      eval_negate_ofMagnitude finite negative]
  · rw [if_neg negative, Leaf.tree_numeral, ← Numeral.value_ofMagnitude_of_nonneg finite negative,
      Expr.eval, requireFinite, if_pos (isFinite_value_ofMagnitude finite)]

theorem Leaf.eval_ofName {word : Text} (numbers : scope.Numbers [word]) :
    (Leaf.ofName scope word).tree.eval = ((Expr.name word).fill scope).eval := by
  rw [Expr.fill]
  unfold Leaf.ofName
  cases held : scope.get? word with
  | none => rfl
  | some value =>
    obtain ⟨x, rfl, finite⟩ := numbers word List.mem_cons_self value held
    have known : (if x == 0 then 0 else x).isFinite = true := by
      split
      · rfl
      · exact finite
    dsimp only
    rw [Expr.eval, requireFinite, if_pos known]
    exact Leaf.eval_ofNumber finite

mutual

theorem Leaf.eval_fill : ∀ leaf : Leaf, scope.Numbers leaf.tree.names →
    (leaf.fill scope).tree.eval = (leaf.tree.fill scope).eval
  | .number _, _ => rfl
  | .name word, numbers => Leaf.eval_ofName numbers
  | .brackets inner, numbers => inner.eval_fill numbers
  | .minus operand, numbers => by
    rw [Leaf.fill, Leaf.tree, Leaf.tree, Expr.fill, Expr.eval, Expr.eval,
      operand.eval_fill numbers]
  | .plus operand, numbers => operand.eval_fill numbers
  | .emptyCall function, _ => rfl
  | .call function arguments, numbers => by
    rw [Leaf.fill, Leaf.tree, Leaf.tree, Expr.fill, Expr.eval, Expr.eval,
      arguments.eval_fill numbers]

theorem Product.eval_fill : ∀ product : Product, scope.Numbers product.tree.names →
    (product.fill scope).tree.eval = (product.tree.fill scope).eval
  | .leaf only, numbers => only.eval_fill numbers
  | .times left op _ right, numbers => by
    obtain ⟨inLeft, inRight⟩ := List.forall_mem_append.mp numbers
    rw [Product.fill, Product.tree, Product.tree, Expr.fill, Expr.eval, Expr.eval,
      left.eval_fill inLeft, right.eval_fill inRight]

/-- **The value of a sum with values** is that of its tree with the variables looked up. -/
theorem Sum.eval_fill : ∀ sum : Sum, scope.Numbers sum.tree.names →
    (sum.fill scope).tree.eval = (sum.tree.fill scope).eval
  | .product only, numbers => only.eval_fill numbers
  | .plus left op _ right, numbers => by
    obtain ⟨inLeft, inRight⟩ := List.forall_mem_append.mp numbers
    rw [Sum.fill, Sum.tree, Sum.tree, Expr.fill, Expr.eval, Expr.eval,
      left.eval_fill inLeft, right.eval_fill inRight]

theorem Arguments.eval_fill : ∀ arguments : Arguments,
    scope.Numbers (Expr.namesOf arguments.trees) →
    Expr.evalAll (arguments.fill scope).trees = Expr.evalAll (Expr.fillAll scope arguments.trees)
  | .last argument, numbers => by
    have inArgument : scope.Numbers argument.tree.names := (List.forall_mem_append.mp numbers).1
    simp only [Arguments.fill, Arguments.trees, Expr.fillAll, Expr.evalAll,
      argument.eval_fill inArgument]
  | .more argument others, numbers => by
    obtain ⟨inArgument, inOthers⟩ := List.forall_mem_append.mp numbers
    rw [Arguments.fill, Arguments.trees, Arguments.trees, Expr.fillAll, Expr.evalAll,
      Expr.evalAll, argument.eval_fill inArgument, others.eval_fill inOthers]

end

/-! ### Levels -/

theorem Product.operators_fill (product : Product) :
    (product.fill scope).operators = product.operators := by
  cases product with
  | leaf _ => rfl
  | times left _ _ _ => exact congrArg (· + 1) left.operators_fill

theorem Sum.operators_fill (sum : Sum) : (sum.fill scope).operators = sum.operators := by
  cases sum with
  | product only => exact only.operators_fill
  | plus left _ _ _ => exact congrArg (· + 1) left.operators_fill

/-- The levels taken once values are in the place of names: no more than one on top, and that only
for the sign of a number below zero. -/
def Raised (scope : Variables) (names : List Text) (before after : Nat) : Prop :=
  before = after ∨ after = before + 1 ∧ ∃ name ∈ names, scope.IsNegative name

theorem Leaf.levels_ofName (word : Text) :
    Raised scope [word] 1 (Leaf.ofName scope word).levels := by
  unfold Leaf.ofName
  cases held : scope.get? word with
  | none => exact Or.inl rfl
  | some value =>
    cases value with
    | date day => exact Or.inl rfl
    | number x =>
      dsimp only
      by_cases negative : x < 0
      · rw [if_pos negative]
        exact Or.inr ⟨rfl, word, List.mem_cons_self, x, held, negative⟩
      · rw [if_neg negative]
        exact Or.inl rfl

theorem Raised.add {names : List Text} {before after : Nat}
    (raised : Raised scope names before after) (more : Nat) :
    Raised scope names (more + before) (more + after) := by
  rcases raised with rfl | ⟨rfl, negative⟩
  · exact Or.inl rfl
  · exact Or.inr ⟨by omega, negative⟩

theorem Raised.max {names others : List Text} {before after beforeToo afterToo : Nat}
    (raised : Raised scope names before after)
    (alsoRaised : Raised scope others beforeToo afterToo) :
    Raised scope (names ++ others) (max before beforeToo) (max after afterToo) := by
  have inNames : (∃ name ∈ names, scope.IsNegative name) →
      ∃ name ∈ names ++ others, scope.IsNegative name := fun ⟨name, isIn, negative⟩ =>
    ⟨name, List.mem_append_left others isIn, negative⟩
  have inOthers : (∃ name ∈ others, scope.IsNegative name) →
      ∃ name ∈ names ++ others, scope.IsNegative name := fun ⟨name, isIn, negative⟩ =>
    ⟨name, List.mem_append_right names isIn, negative⟩
  unfold Raised
  rcases raised with rfl | ⟨rfl, negative⟩ <;> rcases alsoRaised with rfl | ⟨rfl, alsoNegative⟩
  · exact Or.inl rfl
  · have someNegative := inOthers alsoNegative
    by_cases below : before ≤ beforeToo
    · exact Or.inr ⟨by omega, someNegative⟩
    · exact Or.inl (by omega)
  · have someNegative := inNames negative
    by_cases below : beforeToo ≤ before
    · exact Or.inr ⟨by omega, someNegative⟩
    · exact Or.inl (by omega)
  · exact Or.inr ⟨by omega, inNames negative⟩

mutual

theorem Leaf.levels_fill : ∀ leaf : Leaf,
    Raised scope leaf.tree.names leaf.levels (leaf.fill scope).levels
  | .number _ => Or.inl rfl
  | .name word => Leaf.levels_ofName word
  | .brackets inner => inner.levels_fill.add 1
  | .minus operand => operand.levels_fill.add 1
  | .plus operand => operand.levels_fill.add 1
  | .emptyCall _ => Or.inl rfl
  | .call _ arguments => arguments.levels_fill.add 1

theorem Product.levels_fill : ∀ product : Product,
    Raised scope product.tree.names product.levels (product.fill scope).levels
  | .leaf only => only.levels_fill.add 1
  | .times left op _ right => by
    rw [Product.fill, Product.levels, Product.levels, left.operators_fill]
    exact left.levels_fill.max ((right.levels_fill.add 1).add _)

/-- **A sum with values takes one level more at most**, and that only for a number below zero. -/
theorem Sum.levels_fill : ∀ sum : Sum,
    Raised scope sum.tree.names sum.levels (sum.fill scope).levels
  | .product only => only.levels_fill
  | .plus left op _ right => by
    rw [Sum.fill, Sum.levels, Sum.levels, left.operators_fill]
    exact left.levels_fill.max (right.levels_fill.add _)

theorem Arguments.levels_fill : ∀ arguments : Arguments,
    Raised scope (Expr.namesOf arguments.trees) arguments.levels (arguments.fill scope).levels
  | .last argument => by
    rw [Arguments.trees, Expr.namesOf, Expr.namesOf, List.append_nil]
    exact argument.levels_fill
  | .more argument others => argument.levels_fill.max others.levels_fill

end

/-! ### Names among the tokens -/

/-- A name in the tokens of two phrases, with a token between them that is no name. -/
theorem mem_of_mem_between {front back : List Token} {middle : Token} {name : Text}
    {names callees otherNames otherCallees : List Text}
    (isIn : .name name ∈ front ++ middle :: back) (noName : middle ≠ .name name)
    (inFront : .name name ∈ front → name ∈ names ++ callees)
    (inBack : .name name ∈ back → name ∈ otherNames ++ otherCallees) :
    name ∈ (names ++ otherNames) ++ (callees ++ otherCallees) := by
  have either : name ∈ names ++ callees ∨ name ∈ otherNames ++ otherCallees := by
    rw [List.mem_append, List.mem_cons] at isIn
    rcases isIn with isFront | isMiddle | isBack
    · exact Or.inl (inFront isFront)
    · exact absurd isMiddle.symm noName
    · exact Or.inr (inBack isBack)
  grind

mutual

theorem Leaf.mem_of_name_mem : ∀ (leaf : Leaf) {name : Text}, .name name ∈ leaf.tokens →
    name ∈ leaf.tree.names ++ leaf.tree.callees
  | .number _, _, isIn => by cases List.mem_singleton.mp isIn
  | .name word, _, isIn => by
    cases List.mem_singleton.mp isIn
    exact List.mem_cons_self
  | .brackets inner, _, isIn => by
    rw [Leaf.tokens, List.mem_cons, List.mem_append, List.mem_singleton] at isIn
    rcases isIn with none | isIn | none
    · cases none
    · exact inner.mem_of_name_mem isIn
    · cases none
  | .minus operand, _, isIn => by
    rcases List.mem_cons.mp isIn with none | isIn
    · cases none
    · exact operand.mem_of_name_mem isIn
  | .plus operand, _, isIn => by
    rcases List.mem_cons.mp isIn with none | isIn
    · cases none
    · exact operand.mem_of_name_mem isIn
  | .emptyCall function, _, isIn => by
    rcases List.mem_cons.mp isIn with same | isIn
    · cases same
      exact List.mem_cons_self
    · simp at isIn
  | .call function arguments, name, isIn => by
    rcases List.mem_cons.mp isIn with same | isIn
    · cases same
      exact List.mem_append_right _ List.mem_cons_self
    · rcases List.mem_cons.mp isIn with none | isIn
      · cases none
      · have inArguments := arguments.mem_of_name_mem isIn
        rw [List.mem_append] at inArguments ⊢
        exact inArguments.imp_right (List.mem_cons_of_mem function)

theorem Product.mem_of_name_mem : ∀ (product : Product) {name : Text},
    .name name ∈ product.tokens → name ∈ product.tree.names ++ product.tree.callees
  | .leaf only, _, isIn => only.mem_of_name_mem isIn
  | .times left _ _ right, _, isIn =>
    mem_of_mem_between isIn nofun left.mem_of_name_mem right.mem_of_name_mem

/-- A name in the tokens of a sum is one that stands for a value or is called in its tree. -/
theorem Sum.mem_of_name_mem : ∀ (sum : Sum) {name : Text},
    .name name ∈ sum.tokens → name ∈ sum.tree.names ++ sum.tree.callees
  | .product only, _, isIn => only.mem_of_name_mem isIn
  | .plus left _ _ right, _, isIn =>
    mem_of_mem_between isIn nofun left.mem_of_name_mem right.mem_of_name_mem

theorem Arguments.mem_of_name_mem : ∀ (arguments : Arguments) {name : Text},
    .name name ∈ arguments.tokens →
      name ∈ Expr.namesOf arguments.trees ++ Expr.calleesOf arguments.trees
  | .last argument, _, isIn => by
    rw [Arguments.tokens, List.mem_append, List.mem_singleton] at isIn
    rcases isIn with isIn | none
    · rw [Arguments.trees, Expr.namesOf, Expr.namesOf, Expr.calleesOf, Expr.calleesOf,
        List.append_nil, List.append_nil]
      exact argument.mem_of_name_mem isIn
    · cases none
  | .more argument others, _, isIn =>
    mem_of_mem_between isIn nofun argument.mem_of_name_mem others.mem_of_name_mem

end

end Grammar

end Worksheet

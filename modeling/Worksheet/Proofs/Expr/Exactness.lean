/-
**Reading is exact.**

The reader accepts what the grammar spells within the limit of levels, gives the tree of the
grammar for it, and accepts nothing else. That what is spelled is read is known; here the reader is
followed step by step in the other direction: whatever it returns is the tree of a phrase whose
tokens stand in front of the rest. The loop carries the sum that it has read so far, and an operator
that binds tighter than the last one of this sum cannot follow, as the operand before it would have
taken it.

* `Sum.strength` is how tight the loosest operator of a sum binds;
* `SpelledLeaves`, `SpelledSums` and `SpelledChains` say what the three readers return, and
  `spelled` that they do so at every number of levels;
* `ofTokens_exact`: the expression of a list of tokens is there exactly if the grammar spells it,
  and the limit is kept to the level.
-/

import Mathlib.Data.List.Basic
import Worksheet.Proofs.Expr.Acceptance

namespace Worksheet

namespace Grammar

open Worksheet.Expr

/-! ### Strength -/

/-- The precedence of the operators that a sum is made of at the top, above all of them for a leaf
alone. -/
def Sum.strength : Sum → Nat
  | .product (.leaf _) => 3
  | .product (.times _ _ _ _) => 2
  | .plus _ _ _ _ => 1

/-- What binds at least as tight as a product is one. -/
theorem Sum.exists_product (sum : Sum) (strong : 2 ≤ sum.strength) :
    ∃ only : Product, sum = .product only := by
  cases sum with
  | product only => exact ⟨only, rfl⟩
  | plus left op sign right => exact absurd strong (by simp [Sum.strength])

/-- What binds tighter than a product is a leaf. -/
theorem Sum.exists_leaf (sum : Sum) (strong : 3 ≤ sum.strength) :
    ∃ only : Leaf, sum = .product (.leaf only) := by
  obtain ⟨only, rfl⟩ := sum.exists_product (by omega)
  cases only with
  | leaf only => exact ⟨only, rfl⟩
  | times left op sign right => exact absurd strong (by simp [Sum.strength])

/-- **An operator joins two sums** if the left one does not bind looser than it, and the right one
binds tighter. The loop that reads the left one goes on with the operator. -/
theorem Sum.exists_binary {left right : Sum} {op : Operator}
    (leftStrong : op.precedence ≤ left.strength) (rightStrong : op.precedence < right.strength) :
    ∃ sum : Sum, sum.tokens = left.tokens ++ .operator op :: right.tokens ∧
      sum.tree = .binary op left.tree right.tree ∧ sum.strength = op.precedence ∧
      sum.operators = left.operators + 1 ∧
      sum.levels = max left.levels (1 + (left.operators + 1) + right.levels) := by
  have additive : op.precedence = 1 → op ∈ [.add, .sub] := by
    cases op <;> simp [Operator.precedence]
  have multiplicative : op.precedence ≠ 1 → op ∈ [.mul, .div] := by
    cases op <;> simp [Operator.precedence]
  by_cases loose : op.precedence = 1
  · obtain ⟨right, rfl⟩ := right.exists_product (by omega)
    exact ⟨.plus left op (additive loose) right, by simp [Sum.tokens], by simp [Sum.tree],
      loose.symm, rfl, rfl⟩
  · have tight : op.precedence = 2 := precedence_of_product (multiplicative loose)
    obtain ⟨left, rfl⟩ := left.exists_product (by omega)
    obtain ⟨right, rfl⟩ := right.exists_leaf (by omega)
    exact ⟨.product (.times left op (multiplicative loose) right),
      by simp [Sum.tokens, Product.tokens], by simp [Sum.tree, Product.tree], tight.symm, rfl,
      rfl⟩

/-! ### What the readers return -/

/-- Where the loop does not end, an operator follows. -/
theorem exists_operator {precedence : Nat} {tokens : List Token}
    (goesOn : ¬Stops precedence tokens) :
    ∃ op rest, tokens = .operator op :: rest ∧ precedence ≤ op.precedence := by
  simp only [Stops, Classical.not_forall, Nat.not_lt, exists_prop] at goesOn
  exact goesOn

/-- The tokens up to the rest spell a sum with this tree that binds as tight as `precedence`, and
the rest does not go on with it. -/
def Spelled (precedence : Nat) (tokens : List Token) (tree : Expr) (rest : List Token) : Prop :=
  ∃ sum : Sum, tokens = sum.tokens ++ rest ∧ sum.tree = tree ∧ precedence ≤ sum.strength ∧
    Stops precedence rest

/-- The reader of leaves returns trees of leaves. -/
def SpelledLeaves (levels : Nat) : Prop :=
  ∀ tokens tree rest, readLeaf levels tokens = .ok (tree, rest) →
    ∃ leaf : Leaf, tokens = leaf.tokens ++ rest ∧ leaf.tree = tree

/-- The reader of sums returns trees of sums. -/
def SpelledSums (levels : Nat) : Prop :=
  ∀ precedence ≤ 3, ∀ tokens tree rest, readExpr levels precedence tokens = .ok (tree, rest) →
    Spelled precedence tokens tree rest

/-- The loop returns trees of sums that start with the one it has read so far. -/
def SpelledChains (levels : Nat) : Prop :=
  ∀ precedence, ∀ left : Sum, precedence ≤ left.strength →
    ∀ tokens, Stops (left.strength + 1) tokens →
      ∀ tree rest, readChain levels precedence left.tree tokens = .ok (tree, rest) →
        Spelled precedence (left.tokens ++ tokens) tree rest

/-- Arguments that are read one by one are spelled by the grammar. -/
theorem spelled_arguments {readOne : List Token → Reading Expr}
    (one : ∀ tokens tree rest, readOne tokens = .ok (tree, rest) →
      ∃ sum : Sum, tokens = sum.tokens ++ rest ∧ sum.tree = tree) :
    ∀ (rounds : Nat) (found : List Expr) (tokens : List Token) (trees : List Expr)
      (rest : List Token), readArguments readOne rounds found tokens = .ok (trees, rest) →
        ∃ arguments : Arguments, tokens = arguments.tokens ++ rest ∧
          found.reverse ++ arguments.trees = trees := by
  intro rounds
  induction rounds with
  | zero =>
    intro found tokens trees rest read
    rw [readArguments] at read
    cases read
  | succ rounds ih =>
    intro found tokens trees rest read
    rw [readArguments] at read
    split at read
    · cases read
    · next argument behind first =>
      cases read
      obtain ⟨sum, rfl, rfl⟩ := one _ _ _ first
      exact ⟨.last sum, by simp [Arguments.tokens], by simp [Arguments.trees]⟩
    · next argument behind first =>
      obtain ⟨sum, rfl, rfl⟩ := one _ _ _ first
      obtain ⟨others, rfl, rfl⟩ := ih _ _ _ _ read
      exact ⟨.more sum others, by simp [Arguments.tokens], by simp [Arguments.trees]⟩
    · cases read

/-- A name that an opening bracket follows is a call. -/
theorem spelled_call {levels : Nat} (sums : SpelledSums levels) {function : Text}
    {tokens rest : List Token} {tree : Expr}
    (read : readLeaf (levels + 1) (.name function :: .openBracket :: tokens) = .ok (tree, rest)) :
    ∃ leaf : Leaf, .name function :: .openBracket :: tokens = leaf.tokens ++ rest ∧
      leaf.tree = tree := by
  by_cases empty : ∃ behind, tokens = .closeBracket :: behind
  · obtain ⟨behind, rfl⟩ := empty
    rw [readLeaf] at read
    cases read
    exact ⟨.emptyCall function, rfl, rfl⟩
  · rw [readLeaf] at read
    · split at read
      · next trees behind found =>
        cases read
        have one : ∀ tokens tree rest, readExpr levels 0 tokens = .ok (tree, rest) →
            ∃ sum : Sum, tokens = sum.tokens ++ rest ∧ sum.tree = tree := by
          intro tokens tree rest one
          obtain ⟨sum, shape, same, _⟩ := sums 0 (by omega) tokens tree rest one
          exact ⟨sum, shape, same⟩
        obtain ⟨arguments, rfl, rfl⟩ := spelled_arguments one _ _ _ _ _ found
        exact ⟨.call function arguments, rfl, rfl⟩
      · cases read
    · exact fun behind shape => empty ⟨behind, shape⟩

theorem spelledLeaves_succ {levels : Nat} (leaves : SpelledLeaves levels)
    (sums : SpelledSums levels) : SpelledLeaves (levels + 1) := by
  intro tokens tree rest read
  cases tokens with
  | nil => cases read
  | cons token behind =>
    cases token with
    | number digits =>
      rw [readLeaf] at read
      split at read
      · next value found =>
        cases read
        obtain ⟨literal, rfl, rfl⟩ := Literal.exists_of_read? found
        exact ⟨.number literal, rfl, rfl⟩
      · cases read
    | name word =>
      by_cases isCall : ∃ later, behind = .openBracket :: later
      · obtain ⟨later, rfl⟩ := isCall
        exact spelled_call sums read
      · rw [readLeaf] at read
        · cases read
          exact ⟨.name word, rfl, rfl⟩
        · exact fun later shape => isCall ⟨_, shape⟩
        · exact fun later shape => isCall ⟨_, shape⟩
    | openBracket =>
      rw [readLeaf] at read
      split at read
      · next inner later found =>
        cases read
        obtain ⟨sum, rfl, rfl, _⟩ := sums 0 (by omega) _ _ _ found
        exact ⟨.brackets sum, by simp [Leaf.tokens], rfl⟩
      · cases read
      · cases read
    | operator op =>
      cases op with
      | sub =>
        rw [readLeaf] at read
        split at read
        · next operand later found =>
          cases read
          obtain ⟨leaf, rfl, rfl⟩ := leaves _ _ _ found
          exact ⟨.minus leaf, rfl, rfl⟩
        · cases read
      | add =>
        rw [readLeaf] at read
        obtain ⟨leaf, rfl, rfl⟩ := leaves _ _ _ read
        exact ⟨.plus leaf, rfl, rfl⟩
      | mul => cases read
      | div => cases read
    | closeBracket => cases read
    | comma => cases read
    | endMark => cases read

theorem spelledSums_succ {levels : Nat} (leaves : SpelledLeaves levels)
    (chains : SpelledChains levels) : SpelledSums (levels + 1) := by
  intro precedence small tokens tree rest read
  rw [readExpr] at read
  split at read
  · next first behind leafRead =>
    obtain ⟨leaf, rfl, rfl⟩ := leaves _ _ _ leafRead
    refine chains precedence (.product (.leaf leaf)) small behind ?_ tree rest read
    intro op tail _
    cases op <;> simp [Operator.precedence, Sum.strength]
  · cases read

/-- A loop that ends returns what it has read so far. -/
theorem spelled_end {precedence : Nat} {left : Sum} {tokens rest : List Token} {tree : Expr}
    (strong : precedence ≤ left.strength) (stops : Stops precedence tokens)
    (ended : (Except.ok (left.tree, tokens) : Reading Expr) = .ok (tree, rest)) :
    Spelled precedence (left.tokens ++ tokens) tree rest := by
  cases ended
  exact ⟨left, rfl, rfl, strong, stops⟩

theorem spelledChains_zero : SpelledChains 0 := by
  intro precedence left strong tokens follows tree rest read
  by_cases stops : Stops precedence tokens
  · rw [readChain_stops stops] at read
    exact spelled_end strong stops read
  · obtain ⟨op, behind, rfl, tight⟩ := exists_operator stops
    rw [readChain, if_pos tight] at read
    cases read

theorem spelledChains_succ {levels : Nat} (sums : SpelledSums levels)
    (chains : SpelledChains levels) : SpelledChains (levels + 1) := by
  intro precedence left strong tokens follows tree rest read
  by_cases stops : Stops precedence tokens
  · rw [readChain_stops stops] at read
    exact spelled_end strong stops read
  · obtain ⟨op, behind, rfl, tight⟩ := exists_operator stops
    rw [readChain, if_pos tight] at read
    split at read
    · next right later found =>
      have small : op.precedence + 1 ≤ 3 := by cases op <;> decide
      obtain ⟨operand, rfl, rfl, operandStrong, operandStops⟩ := sums _ small _ _ _ found
      obtain ⟨longer, tokens, same, strength, -⟩ := Sum.exists_binary
        (Nat.lt_succ_iff.mp (follows op _ rfl)) operandStrong
      rw [← same] at read
      have spelled := chains precedence longer (by omega) later
        (by rw [strength]; exact operandStops)
        tree rest read
      rw [tokens, List.append_assoc] at spelled
      exact spelled
    · cases read

/-- **What the readers return is spelled by the grammar**, at every number of levels. -/
theorem spelled (levels : Nat) :
    SpelledLeaves levels ∧ SpelledSums levels ∧ SpelledChains levels := by
  induction levels with
  | zero =>
    refine ⟨fun tokens tree rest read => ?_, fun precedence _ tokens tree rest read => ?_,
      spelledChains_zero⟩
    · rw [readLeaf] at read
      cases read
    · rw [readExpr] at read
      cases read
  | succ levels ih =>
    obtain ⟨leaves, sums, chains⟩ := ih
    exact ⟨spelledLeaves_succ leaves sums, spelledSums_succ leaves chains,
      spelledChains_succ sums chains⟩

/-! ### Whole expressions -/

/-- The expression of a list of tokens is spelled by the tokens in front of an end mark. -/
theorem exists_of_ofTokens {tokens : List Token} {tree : Expr}
    (read : Expr.ofTokens tokens = .ok tree) :
    ∃ (sum : Sum) (rest : List Token),
      tokens = sum.tokens ++ .endMark :: rest ∧ sum.tree = tree := by
  rw [Expr.ofTokens] at read
  split at read
  · next found rest first =>
    cases read
    obtain ⟨sum, shape, same, _⟩ := (spelled levelLimit).2.1 0 (by omega) _ _ _ first
    exact ⟨sum, rest, shape, same⟩
  · cases read
  · cases read

/-- A sum that takes no more levels than there are is the expression of its tokens. -/
theorem Sum.ofTokens_eq (sum : Sum) (rest : List Token) (enough : sum.levels ≤ levelLimit) :
    Expr.ofTokens (sum.tokens ++ .endMark :: rest) = .ok sum.tree := by
  rw [Expr.ofTokens, (sum.readExpr_eq .endMark rest rfl levelLimit).1 enough]

/-- A sum that takes more levels than there are is too deep. -/
theorem Sum.ofTokens_tooDeep (sum : Sum) (rest : List Token) (few : levelLimit < sum.levels) :
    ∃ index, Expr.ofTokens (sum.tokens ++ .endMark :: rest) = .error (.atToken index .tooDeep) := by
  obtain ⟨failed, deep⟩ := (sum.readExpr_eq .endMark rest rfl levelLimit).2 few
  rw [Expr.ofTokens, deep]
  exact ⟨_, rfl⟩

/-- **Reading is exact.** Of tokens that the only end mark follows, the expression is the tree of a
sum that they spell. Every sum that they spell is read as its tree if it takes no more levels than
the limit, and is too deep if it takes more. The numbers of a sum are literals, and among digits and
points these are the texts with at least one digit and at most one point. -/
theorem ofTokens_exact (tokens : List Token) (noEnd : .endMark ∉ tokens) :
    (∀ tree, Expr.ofTokens (tokens ++ [.endMark]) = .ok tree →
      ∃ sum : Sum, sum.tokens = tokens ∧ sum.tree = tree) ∧
    (∀ sum : Sum, sum.tokens = tokens →
      (sum.levels ≤ levelLimit → Expr.ofTokens (tokens ++ [.endMark]) = .ok sum.tree) ∧
      (levelLimit < sum.levels →
        ∃ index, Expr.ofTokens (tokens ++ [.endMark]) = .error (.atToken index .tooDeep))) ∧
    ∀ digits : Text, (∀ c ∈ digits, Token.isNumeralPart c = true) →
      ((∃ literal : Literal, literal.text = digits) ↔
        (∃ c ∈ digits, c.isDigit = true) ∧ digits.count '.' ≤ 1) := by
  refine ⟨fun tree read => ?_, ?_, fun digits parts => ?_⟩
  · obtain ⟨sum, rest, shape, same⟩ := exists_of_ofTokens read
    have sameTokens := (List.append_cons_inj_of_notMem noEnd List.not_mem_nil).mp shape
    exact ⟨sum, sameTokens.1.symm, same⟩
  · rintro sum rfl
    exact ⟨sum.ofTokens_eq [], sum.ofTokens_tooDeep []⟩
  · exact (Literal.exists_text_iff parts).trans (and_iff_right parts)

/-- The tokens of `8 - 6 / 3 * -x + f(1, +y)`. -/
def mixedTokens : List Token :=
  [.number ['8'], .operator .sub, .number ['6'], .operator .div, .number ['3'], .operator .mul,
    .operator .sub, .name ['x'], .operator .add, .name ['f'], .openBracket, .number ['1'], .comma,
    .operator .add, .name ['y'], .closeBracket]

/-- Both levels of operators associate to the left, and the signs bind tighter than either. -/
theorem ofTokens_mixedTokens :
    .endMark ∉ mixedTokens ∧
      Expr.ofTokens (mixedTokens ++ [.endMark]) = .ok
        (.binary .add
          (.binary .sub (.number (Decimal.toFloat ⟨8, 0⟩))
            (.binary .mul
              (.binary .div (.number (Decimal.toFloat ⟨6, 0⟩)) (.number (Decimal.toFloat ⟨3, 0⟩)))
              (.negate (.name ['x']))))
          (.call ['f'] [.number (Decimal.toFloat ⟨1, 0⟩), .name ['y']])) := by
  let digit (c : Char) (good : IsNumeral [c]) : Leaf := .number (Numeral.literal ⟨[c], good⟩)
  let quotient : Product := .times (.leaf (digit '6' (by decide))) .div (by decide)
    (digit '3' (by decide))
  let arguments : Arguments := .more (.product (.leaf (digit '1' (by decide))))
    (.last (.product (.leaf (.plus (.name ['y'])))))
  let sum : Sum := .plus
    (.plus (.product (.leaf (digit '8' (by decide)))) .sub (by decide)
      (.times quotient .mul (by decide) (.minus (.name ['x'])))) .add (by decide)
    (.leaf (.call ['f'] arguments))
  have noEnd : .endMark ∉ mixedTokens := by decide
  exact ⟨noEnd, ((ofTokens_exact mixedTokens noEnd).2.1 sum rfl).1 (by decide)⟩

end Grammar

end Worksheet

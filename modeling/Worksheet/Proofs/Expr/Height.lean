/-
**How high the trees are that the limit of levels lets through.**

Evaluation recurses over the tree of an expression, so the limit is to keep trees low. It does not
keep them within its own number. The loop counts for an operand of a chain the operators up to this
operand and gives them back when the chain ends; in the tree, an operand lies below the operators
from it on. A long chain in brackets with a long chain behind it takes as many levels as one of the
two, and its tree is as high as both.

* `Expr.height` is the height of a tree, and `Sum.depth` finds it in the spelling: of all operands,
  the most signs, calls and operators from the operand on;
* `height_le_levelLimit_iff`: the trees of some tokens stay within the limit exactly if these depths
  do for all that the levels let through; in any case they stay within `greatestHeight`, which
  `exists_height_eq_greatestHeight` reaches;
* `height_doubleChainTokens`: 501 operands in two chains have a tree that is too high.
-/

import Worksheet.Proofs.Expr.Exactness

namespace Worksheet

namespace Expr

mutual

/-- The number of nodes on the longest way down a tree. -/
def height : Expr → Nat
  | number _ => 1
  | name _ => 1
  | negate operand => 1 + operand.height
  | binary _ left right => 1 + max left.height right.height
  | call _ arguments => 1 + greatestHeightOf arguments

/-- The height of the highest of some trees. -/
def greatestHeightOf : List Expr → Nat
  | [] => 0
  | first :: others => max first.height (greatestHeightOf others)

end

theorem one_le_height (tree : Expr) : 1 ≤ tree.height := by
  cases tree <;> simp [height]

end Expr

namespace Grammar

/-! ### Heights in the spelling -/

mutual

/-- The number of nodes from the root to the deepest operand of a leaf that lies below `above` of
them. -/
def Leaf.depth (above : Nat) : Leaf → Nat
  | .number _ => above + 1
  | .name _ => above + 1
  | .brackets inner => inner.depth above
  | .minus operand => operand.depth (above + 1)
  | .plus operand => operand.depth above
  | .emptyCall _ => above + 1
  | .call _ arguments => arguments.depth (above + 1)

/-- The same for a product: every operand lies below the operators from it on. -/
def Product.depth (above : Nat) : Product → Nat
  | .leaf only => only.depth above
  | .times left _ _ right => max (left.depth (above + 1)) (right.depth (above + 1))

/-- The same for a sum. -/
def Sum.depth (above : Nat) : Sum → Nat
  | .product only => only.depth above
  | .plus left _ _ right => max (left.depth (above + 1)) (right.depth (above + 1))

/-- The same for arguments. -/
def Arguments.depth (above : Nat) : Arguments → Nat
  | .last argument => argument.depth above
  | .more argument others => max (argument.depth above) (others.depth above)

end

mutual

theorem Leaf.depth_eq : ∀ (leaf : Leaf) (above : Nat),
    leaf.depth above = above + leaf.tree.height
  | .number _, above => by rw [Leaf.depth, Leaf.tree, Expr.height]
  | .name _, above => by rw [Leaf.depth, Leaf.tree, Expr.height]
  | .brackets inner, above => by rw [Leaf.depth, Leaf.tree, inner.depth_eq]
  | .minus operand, above => by
    rw [Leaf.depth, Leaf.tree, Expr.height, operand.depth_eq, Nat.add_assoc]
  | .plus operand, above => by rw [Leaf.depth, Leaf.tree, operand.depth_eq]
  | .emptyCall _, above => by rw [Leaf.depth, Leaf.tree, Expr.height, Expr.greatestHeightOf]
  | .call _ arguments, above => by
    rw [Leaf.depth, Leaf.tree, Expr.height, arguments.depth_eq, Nat.add_assoc]

theorem Product.depth_eq : ∀ (product : Product) (above : Nat),
    product.depth above = above + product.tree.height
  | .leaf only, above => by rw [Product.depth, Product.tree, only.depth_eq]
  | .times left _ _ right, above => by
    rw [Product.depth, Product.tree, Expr.height, left.depth_eq, right.depth_eq]
    omega

/-- **The depth of a sum is the height of its tree.** -/
theorem Sum.depth_eq : ∀ (sum : Sum) (above : Nat), sum.depth above = above + sum.tree.height
  | .product only, above => by rw [Sum.depth, Sum.tree, only.depth_eq]
  | .plus left _ _ right, above => by
    rw [Sum.depth, Sum.tree, Expr.height, left.depth_eq, right.depth_eq]
    omega

theorem Arguments.depth_eq : ∀ (arguments : Arguments) (above : Nat),
    arguments.depth above = above + Expr.greatestHeightOf arguments.trees
  | .last argument, above => by
    rw [Arguments.depth, Arguments.trees, Expr.greatestHeightOf, Expr.greatestHeightOf,
      argument.depth_eq]
    omega
  | .more argument others, above => by
    rw [Arguments.depth, Arguments.trees, Expr.greatestHeightOf, argument.depth_eq,
      others.depth_eq]
    omega

end

/-! ### The highest trees -/

/-- How high the tree of a leaf can be that takes so many levels. From five levels on, the best is a
call of a chain whose first operand is as high as can be. -/
def leafHeight : Nat → Nat
  | levels + 5 => leafHeight (levels + 3) + (levels + 2)
  | levels => levels

/-- How high the tree of a sum can be that takes so many levels: as many operators as possible behind
a leaf that is as high as can be. -/
def sumHeight (levels : Nat) : Nat :=
  leafHeight (levels - 1) + (levels - 3)

/-- With one level more a leaf can be higher by one node at least. -/
theorem leafHeight_lt_succ : ∀ levels, leafHeight levels < leafHeight (levels + 1)
  | 0 | 1 | 2 | 3 | 4 => by decide
  | levels + 5 => by
    have later := leafHeight_lt_succ (levels + 3)
    show leafHeight (levels + 3) + (levels + 2) < leafHeight (levels + 3 + 1) + (levels + 1 + 2)
    omega

theorem leafHeight_mono {levels more : Nat} (enough : levels ≤ more) :
    leafHeight levels ≤ leafHeight more := by
  induction enough with
  | refl => exact Nat.le_refl _
  | step _ ih => exact Nat.le_trans ih (Nat.le_of_lt (leafHeight_lt_succ _))

theorem sumHeight_mono {levels more : Nat} (enough : levels ≤ more) :
    sumHeight levels ≤ sumHeight more := by
  have leaves : leafHeight (levels - 1) ≤ leafHeight (more - 1) := leafHeight_mono (by omega)
  rw [sumHeight, sumHeight]
  omega

/-- A leaf that takes one level more than a sum can be higher by one node at least. -/
theorem sumHeight_lt : ∀ levels, sumHeight levels < leafHeight (levels + 1)
  | 0 | 1 | 2 | 3 => by decide
  | levels + 4 => by
    show leafHeight (levels + 3) + (levels + 1) < leafHeight (levels + 3) + (levels + 2)
    omega

/-- A product takes two levels, or three and one more for every operator. -/
theorem Product.operators_bound : ∀ product : Product,
    2 ≤ product.levels ∧ product.operators ≤ product.levels - 3
  | .leaf only => by
    have one : 1 ≤ only.levels := by cases only <;> simp [Leaf.levels]
    rw [Product.levels, Product.operators]
    omega
  | .times left _ _ right => by
    have one : 1 ≤ right.levels := by cases right <;> simp [Leaf.levels]
    rw [Product.levels, Product.operators]
    omega

/-- A sum takes two levels, or three and one more for every operator. -/
theorem Sum.operators_bound : ∀ sum : Sum, 2 ≤ sum.levels ∧ sum.operators ≤ sum.levels - 3
  | .product only => only.operators_bound
  | .plus left _ _ right => by
    have two := right.operators_bound
    rw [Sum.levels, Sum.operators]
    omega

mutual

/-- A leaf is no higher than its levels allow. -/
theorem Leaf.height_le : ∀ leaf : Leaf, leaf.tree.height ≤ leafHeight leaf.levels
  | .number _ => Nat.le_refl 1
  | .name _ => Nat.le_refl 1
  | .brackets inner => by
    have below := inner.height_le
    have room := sumHeight_lt inner.levels
    have operators := inner.operators_bound
    have bound : inner.tree.height ≤ sumHeight inner.levels := by rw [sumHeight]; omega
    rw [Leaf.tree, Leaf.levels, Nat.add_comm]
    omega
  | .minus operand => by
    have below := operand.height_le
    have room := leafHeight_lt_succ operand.levels
    rw [Leaf.tree, Leaf.levels, Expr.height, Nat.add_comm 1 operand.levels]
    omega
  | .plus operand => by
    have below := operand.height_le
    have room := leafHeight_lt_succ operand.levels
    rw [Leaf.tree, Leaf.levels, Nat.add_comm]
    omega
  | .emptyCall _ => Nat.le_refl 1
  | .call _ arguments => by
    have below := arguments.height_le
    have room := sumHeight_lt arguments.levels
    rw [Leaf.tree, Leaf.levels, Expr.height, Nat.add_comm 1 arguments.levels]
    omega

/-- A product is no higher than a leaf with all but one of its levels and its operators allow. -/
theorem Product.height_le : ∀ product : Product,
    product.tree.height ≤ leafHeight (product.levels - 1) + product.operators
  | .leaf only => by
    have below := only.height_le
    rw [Product.tree, Product.levels, Product.operators, Nat.add_sub_cancel_left]
    exact below
  | .times left op sign right => by
    have leftBelow := left.height_le
    have rightBelow := right.height_le
    have leftRoom : leafHeight (left.levels - 1) ≤
        leafHeight ((Product.times left op sign right).levels - 1) :=
      leafHeight_mono (by rw [Product.levels]; omega)
    have rightRoom : leafHeight right.levels ≤
        leafHeight ((Product.times left op sign right).levels - 1) :=
      leafHeight_mono (by rw [Product.levels]; omega)
    rw [Product.tree, Expr.height, Product.operators]
    omega

/-- A sum is no higher than a leaf with all but one of its levels and its operators allow. -/
theorem Sum.height_le : ∀ sum : Sum,
    sum.tree.height ≤ leafHeight (sum.levels - 1) + sum.operators
  | .product only => only.height_le
  | .plus left op sign right => by
    have leftBelow := left.height_le
    have rightBelow := right.height_le
    have operators := right.operators_bound
    have rightBound : right.tree.height ≤ sumHeight right.levels := by rw [sumHeight]; omega
    have room := sumHeight_lt right.levels
    have leftRoom : leafHeight (left.levels - 1) ≤
        leafHeight ((Sum.plus left op sign right).levels - 1) :=
      leafHeight_mono (by rw [Sum.levels]; omega)
    have rightRoom : leafHeight (right.levels + 1) ≤
        leafHeight ((Sum.plus left op sign right).levels - 1) :=
      leafHeight_mono (by rw [Sum.levels]; omega)
    rw [Sum.tree, Expr.height, Sum.operators]
    omega

/-- Arguments are no higher than sums with their levels allow. -/
theorem Arguments.height_le : ∀ arguments : Arguments,
    Expr.greatestHeightOf arguments.trees ≤ sumHeight arguments.levels
  | .last argument => by
    have below := argument.height_le
    have operators := argument.operators_bound
    rw [Arguments.trees, Arguments.levels, Expr.greatestHeightOf, Expr.greatestHeightOf, sumHeight]
    omega
  | .more argument others => by
    have below := argument.height_le
    have operators := argument.operators_bound
    have bound : argument.tree.height ≤ sumHeight argument.levels := by rw [sumHeight]; omega
    have othersBelow := others.height_le
    have first : sumHeight argument.levels ≤ sumHeight (max argument.levels others.levels) :=
      sumHeight_mono (by omega)
    have later : sumHeight others.levels ≤ sumHeight (max argument.levels others.levels) :=
      sumHeight_mono (by omega)
    rw [Arguments.trees, Arguments.levels, Expr.greatestHeightOf]
    omega

end

/-! ### Chains -/

/-- The numeral `1`. -/
def one : Leaf :=
  .number ⟨['1'], by decide⟩

/-- A leaf and a number of times `+ 1`. -/
def chain (first : Leaf) : Nat → Sum
  | 0 => .product (.leaf first)
  | count + 1 => .plus (chain first count) .add (by decide) (.leaf one)

/-- A number of times the tokens of `+ 1`. -/
def signs (count : Nat) : List Token :=
  (List.replicate count [Token.operator .add, .number ['1']]).flatten

theorem tokens_chain (first : Leaf) (count : Nat) :
    (chain first count).tokens = first.tokens ++ signs count := by
  induction count with
  | zero => simp [chain, signs, Sum.tokens, Product.tokens]
  | succ count ih =>
    rw [chain, Sum.tokens, ih, signs, signs, List.replicate_succ', List.flatten_append]
    simp [Product.tokens, one, Leaf.tokens]

theorem operators_chain (first : Leaf) (count : Nat) : (chain first count).operators = count := by
  induction count with
  | zero => rfl
  | succ count ih => rw [chain, Sum.operators, ih]

theorem levels_chain (first : Leaf) (count : Nat) :
    (chain first (count + 1)).levels = max (1 + first.levels) (count + 4) := by
  induction count with
  | zero => rfl
  | succ count ih =>
    rw [chain, Sum.levels, ih, operators_chain, Product.levels, one, Leaf.levels]
    omega

theorem height_chain (first : Leaf) (count : Nat) :
    (chain first count).tree.height = first.tree.height + count := by
  have positive := first.tree.one_le_height
  induction count with
  | zero => rfl
  | succ count ih =>
    rw [chain, Sum.tree, Expr.height, ih, Product.tree, one, Leaf.tree, Expr.height]
    omega

/-- The highest leaf with three levels, and with two levels more for every further call. A call is
around the longest chain behind the next lower one that takes only one level more. -/
def highestLeaf : Nat → Leaf
  | 0 => .minus (.minus one)
  | calls + 1 => .call ['f'] (.last (chain (highestLeaf calls) (2 * calls + 1)))

/-- The highest sum with four levels, and with two levels more for every further call. -/
def highestSum (calls : Nat) : Sum :=
  chain (highestLeaf calls) (2 * calls + 1)

theorem levels_highestLeaf (calls : Nat) : (highestLeaf calls).levels = 2 * calls + 3 := by
  induction calls with
  | zero => rfl
  | succ calls ih =>
    rw [highestLeaf, Leaf.levels, Arguments.levels, levels_chain, ih]
    omega

theorem height_highestLeaf (calls : Nat) :
    (highestLeaf calls).tree.height = leafHeight (2 * calls + 3) := by
  induction calls with
  | zero => rfl
  | succ calls ih =>
    rw [highestLeaf, Leaf.tree, Expr.height, Arguments.trees, Expr.greatestHeightOf,
      Expr.greatestHeightOf, height_chain, ih]
    show _ = leafHeight (2 * calls + 3) + (2 * calls + 2)
    omega

theorem levels_highestSum (calls : Nat) : (highestSum calls).levels = 2 * calls + 4 := by
  rw [highestSum, levels_chain, levels_highestLeaf]
  omega

theorem height_highestSum (calls : Nat) :
    (highestSum calls).tree.height = sumHeight (2 * calls + 4) := by
  rw [highestSum, height_chain, height_highestLeaf]
  rfl

/-! ### Whole expressions -/

/-- The height of the highest tree that the limit of levels lets through. -/
def greatestHeight : Nat := 62252

theorem sumHeight_levelLimit : sumHeight levelLimit = greatestHeight := by
  decide +kernel

/-- The trees of tokens are those of the sums in front of an end mark that the levels let
through. -/
theorem forall_ofTokens_iff (tokens : List Token) (property : Expr → Prop) :
    (∀ tree, Expr.ofTokens tokens = .ok tree → property tree) ↔
      ∀ sum : Sum, sum.tokens ++ [.endMark] <+: tokens → sum.levels ≤ levelLimit →
        property sum.tree := by
  constructor
  · rintro all sum ⟨rest, rfl⟩ enough
    refine all sum.tree ?_
    rw [List.append_assoc]
    exact sum.ofTokens_eq rest enough
  · intro all tree read
    obtain ⟨sum, rest, rfl, rfl⟩ := exists_of_ofTokens read
    refine all sum ⟨rest, by simp⟩ ?_
    by_contra many
    obtain ⟨index, deep⟩ := sum.ofTokens_tooDeep rest (Nat.not_le.mp many)
    rw [deep] at read
    cases read

/-- No sum that the levels let through has a higher tree. -/
theorem Sum.height_le_greatestHeight (sum : Sum) (enough : sum.levels ≤ levelLimit) :
    sum.tree.height ≤ greatestHeight := by
  have below := sum.height_le
  have operators := sum.operators_bound
  have bound : sum.tree.height ≤ sumHeight sum.levels := by
    rw [sumHeight]
    omega
  rw [← sumHeight_levelLimit]
  exact Nat.le_trans bound (sumHeight_mono enough)

/-- A tree as high as that is read. -/
theorem exists_height_eq_greatestHeight :
    ∃ sum : Sum, Expr.ofTokens (sum.tokens ++ [.endMark]) = .ok sum.tree ∧
      sum.tree.height = greatestHeight := by
  refine ⟨highestSum 248, (highestSum 248).ofTokens_eq [] ?_, ?_⟩
  · rw [levels_highestSum]
    decide
  · rw [height_highestSum]
    exact sumHeight_levelLimit

/-- **The limit of levels bounds the height of trees, but not by its own number.** The trees of some
tokens stay within the limit exactly if, of all sums in front of an end mark that the levels let
through, no operand lies below more signs, calls and operators from itself on than that. In any case
they stay within `greatestHeight`. -/
theorem height_le_levelLimit_iff (tokens : List Token) :
    ((∀ tree, Expr.ofTokens tokens = .ok tree → tree.height ≤ levelLimit) ↔
      ∀ sum : Sum, sum.tokens ++ [.endMark] <+: tokens → sum.levels ≤ levelLimit →
        sum.depth 0 ≤ levelLimit) ∧
    ∀ tree, Expr.ofTokens tokens = .ok tree → tree.height ≤ greatestHeight := by
  constructor
  · simp only [Sum.depth_eq, Nat.zero_add]
    exact forall_ofTokens_iff tokens fun tree => tree.height ≤ levelLimit
  · rw [forall_ofTokens_iff tokens fun tree => tree.height ≤ greatestHeight]
    intro sum _ enough
    exact sum.height_le_greatestHeight enough

/-- The tokens of `(1 + 1 + … + 1) + 1 + … + 1`, with 250 signs in the brackets and 250 behind. -/
def doubleChainTokens : List Token :=
  .openBracket :: .number ['1'] :: (signs 250 ++ .closeBracket :: signs 250)

/-- The chain behind the brackets takes no more levels than the one in them, and its tree stands on
top of the other. -/
theorem height_doubleChainTokens :
    ∃ tree, Expr.ofTokens (doubleChainTokens ++ [.endMark]) = .ok tree ∧
      tree.height = 501 ∧ levelLimit < tree.height := by
  have spelled : (chain (.brackets (chain one 250)) 250).tokens = doubleChainTokens := by
    rw [tokens_chain, Leaf.tokens, tokens_chain]
    simp [doubleChainTokens, one, Leaf.tokens]
  have height : (chain (.brackets (chain one 250)) 250).tree.height = 501 := by
    rw [height_chain, Leaf.tree, height_chain]
    rfl
  refine ⟨_, ?_, height, by rw [height]; decide⟩
  rw [← spelled]
  refine Sum.ofTokens_eq _ [] ?_
  rw [levels_chain, Leaf.levels, levels_chain]
  decide

end Grammar

end Worksheet

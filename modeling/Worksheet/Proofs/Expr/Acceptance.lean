/-
**What the grammar spells is read.**

The reader is followed along a phrase of the grammar: given the tokens of the phrase and any rest
that cannot go on with it, it returns the tree of the phrase and the rest if the levels suffice,
and finds the expression too deep if they do not. No other fault can come up on the way.

* `Within` says this of one reading: which reading it comes down to, and from how many levels on;
* `Leaf.read`, `Product.read`, `Sum.read` and `Arguments.read` follow the phrases: a loop that has
  read a product or a sum goes on with the rest;
* `Sum.readExpr_eq` is the same for a sum that a closing bracket, a comma or the end mark follows.
-/

import Worksheet.Proofs.Expr.Grammar

namespace Worksheet

namespace Grammar

open Worksheet.Expr

/-! ### Readings that depend on the levels -/

variable {α β : Type}

/-- The levels ran out somewhere. -/
def TooDeep (reading : Reading α) : Prop :=
  ∃ tokens, reading = .error ⟨.tooDeep, tokens⟩

/-- From `need` levels on the reading comes down to `next`, and with fewer it is too deep. -/
def Within (need levels : Nat) (reading next : Reading α) : Prop :=
  (need ≤ levels → reading = next) ∧ (levels < need → TooDeep reading)

namespace Within

variable {first second levels : Nat} {reading middle next : Reading α}

/-- What passes failures on keeps the levels. -/
theorem through (continuation : Reading α → Reading β)
    (passes : ∀ failure, continuation (.error failure) = .error failure)
    (within : Within first levels reading next) :
    Within first levels (continuation reading) (continuation next) := by
  refine ⟨fun enough => by rw [within.1 enough], fun few => ?_⟩
  obtain ⟨tokens, deep⟩ := within.2 few
  exact ⟨tokens, by rw [deep, passes]⟩

/-- Two readings in a row, both with all levels, take the larger number. -/
theorem and_then (start : Within first levels reading middle)
    (continued : Within second levels middle next) :
    Within (max first second) levels reading next := by
  refine ⟨fun enough => ?_, fun few => ?_⟩
  · rw [start.1 (by omega)]
    exact continued.1 (by omega)
  · by_cases startEnough : first ≤ levels
    · obtain ⟨tokens, deep⟩ := continued.2 (by omega)
      exact ⟨tokens, by rw [start.1 startEnough, deep]⟩
    · exact start.2 (by omega)

/-- Levels that are held in the meantime are needed on top. -/
theorem holding (held : Nat) (positive : 0 < first)
    (within : Within first (levels - held) reading next) :
    Within (held + first) levels reading next :=
  ⟨fun enough => within.1 (by omega), fun few => within.2 (by omega)⟩

end Within

/-! ### Steps of the reader -/

/-- The next token is no operator that binds as tight as `precedence`. -/
def Stops (precedence : Nat) (tokens : List Token) : Prop :=
  ∀ op rest, tokens = .operator op :: rest → op.precedence < precedence

/-- Where no operator binds tight enough, the loop ends. -/
theorem readChain_stops {precedence : Nat} {tokens : List Token} (stops : Stops precedence tokens)
    (levels : Nat) (left : Expr) :
    readChain levels precedence left tokens = .ok (left, tokens) := by
  by_cases isOperator : ∃ op rest, tokens = .operator op :: rest
  · obtain ⟨op, rest, rfl⟩ := isOperator
    have loose : ¬precedence ≤ op.precedence := Nat.not_le.mpr (stops op rest rfl)
    cases levels with
    | zero => rw [readChain, if_neg loose]
    | succ levels => rw [readChain, if_neg loose]
  · have other : ∀ op rest, tokens = .operator op :: rest → False :=
      fun op rest shape => isOperator ⟨op, rest, shape⟩
    cases levels with
    | zero => rw [readChain]; exact other
    | succ levels => rw [readChain]; exact other

/-- A leaf takes a level for itself. -/
theorem within_readLeaf (need : Nat) {tokens : List Token} {next : Reading Expr}
    (step : ∀ levels, Within need levels (readLeaf (levels + 1) tokens) next) (levels : Nat) :
    Within (1 + need) levels (readLeaf levels tokens) next := by
  cases levels with
  | zero => exact ⟨fun enough => by omega, fun _ => ⟨tokens, by rw [readLeaf]⟩⟩
  | succ levels =>
    exact ⟨fun enough => (step levels).1 (by omega), fun few => (step levels).2 (by omega)⟩

/-- What a loop does with the operand that it has read. -/
def afterOperand (next : Expr → List Token → Reading Expr) : Reading Expr → Reading Expr
  | .ok (operand, rest) => next operand rest
  | .error failure => .error failure

/-- A loop takes a level for itself, reads a leaf and goes on with what follows. -/
theorem within_readExpr {need : Nat} {tokens rest : List Token} {first : Expr}
    (leaf : ∀ levels, Within need levels (readLeaf levels tokens) (.ok (first, rest)))
    (precedence levels : Nat) :
    Within (1 + need) levels (readExpr levels precedence tokens)
      (readChain (levels - 1) precedence first rest) := by
  cases levels with
  | zero => exact ⟨fun enough => by omega, fun _ => ⟨tokens, by rw [readExpr]⟩⟩
  | succ levels =>
    have passed := (leaf levels).through (afterOperand (readChain levels precedence)) fun _ => rfl
    rw [readExpr]
    exact ⟨fun enough => passed.1 (by omega), fun few => passed.2 (by omega)⟩

/-- An operator that binds tight enough takes a level, which the loop keeps, and its operand. -/
theorem within_readChain {need precedence : Nat} {op : Operator} {tokens rest : List Token}
    {right : Expr} (binds : precedence ≤ op.precedence)
    (operand : ∀ levels,
      Within need levels (readExpr levels (op.precedence + 1) tokens) (.ok (right, rest)))
    (left : Expr) (levels : Nat) :
    Within (1 + need) levels (readChain levels precedence left (.operator op :: tokens))
      (readChain (levels - 1) precedence (.binary op left right) rest) := by
  cases levels with
  | zero =>
    exact ⟨fun enough => by omega, fun _ => ⟨.operator op :: tokens, by
      rw [readChain, if_pos binds]⟩⟩
  | succ levels =>
    have passed := (operand levels).through
      (afterOperand fun right => readChain levels precedence (.binary op left right)) fun _ => rfl
    rw [readChain, if_pos binds]
    exact ⟨fun enough => passed.1 (by omega), fun few => passed.2 (by omega)⟩

/-- What a round of reading arguments does with the argument that it has read. -/
def afterArgument (readOne : List Token → Reading Expr) (rounds : Nat) (found : List Expr) :
    Reading Expr → Reading (List Expr)
  | .error failure => .error failure
  | .ok (argument, .closeBracket :: rest) => .ok ((argument :: found).reverse, rest)
  | .ok (argument, .comma :: rest) => readArguments readOne rounds (argument :: found) rest
  | .ok (_, rest) => .error (unexpectedAt rest)

theorem readArguments_succ (readOne : List Token → Reading Expr) (rounds : Nat)
    (found : List Expr) (tokens : List Token) :
    readArguments readOne (rounds + 1) found tokens =
      afterArgument readOne rounds found (readOne tokens) := by
  rw [readArguments]
  rfl

/-! ### Phrases of the grammar -/

/-- A token that can neither go on with a sum in front of it nor turn its last name into a call. -/
def endsSum : Token → Bool
  | .closeBracket | .comma | .endMark => true
  | _ => false

theorem precedence_of_sum {op : Operator} (sign : op ∈ [.add, .sub]) :
    op.precedence = 1 := by
  simp only [List.mem_cons, List.not_mem_nil, or_false] at sign
  rcases sign with rfl | rfl <;> rfl

theorem precedence_of_product {op : Operator} (sign : op ∈ [.mul, .div]) :
    op.precedence = 2 := by
  simp only [List.mem_cons, List.not_mem_nil, or_false] at sign
  rcases sign with rfl | rfl <;> rfl

/-- Every operator binds looser than a leaf. -/
theorem stops_three (tokens : List Token) : Stops 3 tokens := by
  intro op rest _
  cases op <;> decide

/-- An operator of a sum does not go on with a product. -/
theorem stops_two_of_sum {op : Operator} (sign : op ∈ [.add, .sub]) (rest : List Token) :
    Stops 2 (.operator op :: rest) := by
  intro other tail same
  cases same
  rw [precedence_of_sum sign]
  decide

/-- A leaf does not start with a closing bracket. -/
theorem Leaf.tokens_ne_closeBracket (leaf : Leaf) (rest behind : List Token) :
    leaf.tokens ++ behind ≠ .closeBracket :: rest := by
  cases leaf <;> simp [Leaf.tokens]

theorem Product.tokens_ne_closeBracket : ∀ (product : Product) (rest behind : List Token),
    product.tokens ++ behind ≠ .closeBracket :: rest
  | .leaf only, rest, behind => by
    rw [Product.tokens]
    exact only.tokens_ne_closeBracket rest behind
  | .times left op _ right, rest, behind => by
    rw [Product.tokens, List.append_assoc]
    exact left.tokens_ne_closeBracket rest _

theorem Sum.tokens_ne_closeBracket : ∀ (sum : Sum) (rest behind : List Token),
    sum.tokens ++ behind ≠ .closeBracket :: rest
  | .product only, rest, behind => by
    rw [Sum.tokens]
    exact only.tokens_ne_closeBracket rest behind
  | .plus left op _ right, rest, behind => by
    rw [Sum.tokens, List.append_assoc]
    exact left.tokens_ne_closeBracket rest _

theorem Arguments.tokens_ne_closeBracket (arguments : Arguments) (rest behind : List Token) :
    arguments.tokens ++ behind ≠ .closeBracket :: rest := by
  cases arguments with
  | last argument =>
    rw [Arguments.tokens, List.append_assoc]
    exact argument.tokens_ne_closeBracket rest _
  | more argument others =>
    rw [Arguments.tokens, List.append_assoc]
    exact argument.tokens_ne_closeBracket rest _

/-- A rest that turns a name in front of it into no call. -/
def NoCall (rest : List Token) : Prop :=
  ∀ behind, rest ≠ .openBracket :: behind

mutual

/-- A leaf is read. -/
theorem Leaf.read : ∀ (leaf : Leaf) (rest : List Token), NoCall rest → ∀ levels,
    Within leaf.levels levels (readLeaf levels (leaf.tokens ++ rest)) (.ok (leaf.tree, rest))
  | .number literal, rest, _ => by
    refine within_readLeaf 0 fun levels => ⟨fun _ => ?_, fun few => by omega⟩
    rw [Leaf.tokens, List.singleton_append, readLeaf, literal.read?_text]
    rfl
  | .name word, rest, noCall => by
    refine within_readLeaf 0 fun levels => ⟨fun _ => ?_, fun few => by omega⟩
    rw [Leaf.tokens, List.singleton_append, readLeaf]
    · rfl
    · exact fun behind => noCall _
    · exact fun behind => noCall _
  | .brackets inner, rest, _ => by
    refine within_readLeaf inner.levels fun levels => ?_
    rw [Leaf.tokens, List.cons_append, List.append_assoc, readLeaf]
    exact (inner.readExpr_eq .closeBracket rest rfl levels).through
      (fun (reading : Reading Expr) => match reading with
        | .ok (inner, .closeBracket :: rest) => .ok (inner, rest)
        | .ok (_, rest) => .error (unexpectedAt rest)
        | .error failure => .error failure) fun _ => rfl
  | .minus operand, rest, noCall => by
    refine within_readLeaf operand.levels fun levels => ?_
    rw [Leaf.tokens, List.cons_append, readLeaf]
    exact (operand.read rest noCall levels).through
      (fun (reading : Reading Expr) => match reading with
        | .ok (operand, rest) => .ok (Expr.negate operand, rest)
        | .error failure => .error failure) fun _ => rfl
  | .plus operand, rest, noCall => by
    refine within_readLeaf operand.levels fun levels => ?_
    rw [Leaf.tokens, List.cons_append, readLeaf]
    exact operand.read rest noCall levels
  | .emptyCall function, rest, _ => by
    refine within_readLeaf 0 fun levels => ⟨fun _ => ?_, fun few => by omega⟩
    rfl
  | .call function arguments, rest, _ => by
    refine within_readLeaf arguments.levels fun levels => ?_
    rw [Leaf.tokens, List.cons_append, List.cons_append, readLeaf]
    · have rounds : arguments.tokens.length ≤ (arguments.tokens ++ rest).length := by
        rw [List.length_append]
        exact Nat.le_add_right _ _
      exact (arguments.read rest _ [] rounds levels).through
        (fun (reading : Reading (List Expr)) => match reading with
          | .ok (arguments, rest) => .ok (Expr.call function arguments, rest)
          | .error failure => .error failure) fun _ => rfl
    · exact fun behind => arguments.tokens_ne_closeBracket behind rest

/-- A loop reads a product and goes on with the rest. -/
theorem Product.read : ∀ (product : Product) (rest : List Token), NoCall rest →
    ∀ (precedence : Nat), precedence ≤ 2 → ∀ levels,
      Within product.levels levels (readExpr levels precedence (product.tokens ++ rest))
        (readChain (levels - (1 + product.operators)) precedence product.tree rest)
  | .leaf only, rest, noCall, precedence, _, levels =>
    within_readExpr (only.read rest noCall) precedence levels
  | .times left op sign right, rest, noCall, precedence, loose, levels => by
    have tight : op.precedence = 2 := precedence_of_product sign
    have start := left.read (.operator op :: (right.tokens ++ rest)) (by simp [NoCall])
      precedence loose levels
    have operand : ∀ levels, Within (1 + right.levels) levels
        (readExpr levels (op.precedence + 1) (right.tokens ++ rest)) (.ok (right.tree, rest)) := by
      intro levels
      have loop := within_readExpr (right.read rest noCall) (op.precedence + 1) levels
      rw [tight, readChain_stops (stops_three rest)] at loop
      rw [tight]
      exact loop
    have binds : precedence ≤ op.precedence := by omega
    have step := within_readChain binds operand left.tree (levels - (1 + left.operators))
    have both := start.and_then (step.holding (1 + left.operators) (by omega))
    rw [Product.tokens, List.append_assoc, Product.levels, Product.operators]
    rw [show 1 + (left.operators + 1) + (1 + right.levels) =
      1 + left.operators + (1 + (1 + right.levels)) by omega,
      show levels - (1 + (left.operators + 1)) = levels - (1 + left.operators) - 1 by omega]
    exact both

/-- A loop reads a sum and goes on with the rest. -/
theorem Sum.read : ∀ (sum : Sum) (rest : List Token), NoCall rest → Stops 2 rest →
    ∀ (precedence : Nat), precedence ≤ 1 → ∀ levels,
      Within sum.levels levels (readExpr levels precedence (sum.tokens ++ rest))
        (readChain (levels - (1 + sum.operators)) precedence sum.tree rest)
  | .product only, rest, noCall, _, precedence, loose, levels =>
    only.read rest noCall precedence (by omega) levels
  | .plus left op sign right, rest, noCall, stops, precedence, loose, levels => by
    have tight : op.precedence = 1 := precedence_of_sum sign
    have start := left.read (.operator op :: (right.tokens ++ rest)) (by simp [NoCall])
      (stops_two_of_sum sign _) precedence loose levels
    have operand : ∀ levels, Within right.levels levels
        (readExpr levels (op.precedence + 1) (right.tokens ++ rest)) (.ok (right.tree, rest)) := by
      intro levels
      have loop := right.read rest noCall 2 (by omega) levels
      rw [readChain_stops stops] at loop
      rw [tight]
      exact loop
    have binds : precedence ≤ op.precedence := by omega
    have step := within_readChain binds operand left.tree (levels - (1 + left.operators))
    have both := start.and_then (step.holding (1 + left.operators) (by omega))
    rw [Sum.tokens, List.append_assoc, Sum.levels, Sum.operators]
    rw [show 1 + (left.operators + 1) + right.levels = 1 + left.operators + (1 + right.levels) by
      omega, show levels - (1 + (left.operators + 1)) = levels - (1 + left.operators) - 1 by omega]
    exact both

/-- A sum is read by a loop of its own up to a token that cannot go on with it. -/
theorem Sum.readExpr_eq : ∀ (sum : Sum) (behind : Token) (rest : List Token),
    endsSum behind = true → ∀ levels,
      Within sum.levels levels (readExpr levels 0 (sum.tokens ++ behind :: rest))
        (.ok (sum.tree, behind :: rest))
  | sum, behind, rest, ends, levels => by
    have noCall : NoCall (behind :: rest) := by
      intro tail same
      cases same
      exact absurd ends (by decide)
    have stops : ∀ precedence, Stops precedence (behind :: rest) := by
      intro precedence op tail same
      cases same
      exact absurd ends (by simp [endsSum])
    have loop := sum.read (behind :: rest) noCall (stops 2) 0 (by omega) levels
    rw [readChain_stops (stops 0)] at loop
    exact loop

/-- Arguments are read up to the closing bracket. -/
theorem Arguments.read : ∀ (arguments : Arguments) (rest : List Token) (rounds : Nat)
    (found : List Expr), arguments.tokens.length ≤ rounds → ∀ levels,
      Within arguments.levels levels
        (readArguments (readExpr levels 0) rounds found (arguments.tokens ++ rest))
        (.ok (found.reverse ++ arguments.trees, rest))
  | .last argument, rest, rounds, found, enough, levels => by
    rw [Arguments.tokens, List.length_append, List.length_singleton] at enough
    obtain ⟨rounds, rfl⟩ := Nat.exists_eq_add_of_le' (show 1 ≤ rounds by omega)
    have one := (argument.readExpr_eq .closeBracket rest rfl levels).through
      (afterArgument (readExpr levels 0) rounds found) fun _ => rfl
    rw [Arguments.tokens, List.append_assoc, readArguments_succ]
    rw [afterArgument, List.reverse_cons] at one
    exact one
  | .more argument others, rest, rounds, found, enough, levels => by
    rw [Arguments.tokens, List.length_append, List.length_cons] at enough
    obtain ⟨rounds, rfl⟩ := Nat.exists_eq_add_of_le' (show 1 ≤ rounds by omega)
    have one := (argument.readExpr_eq .comma (others.tokens ++ rest) rfl levels).through
      (afterArgument (readExpr levels 0) rounds found) fun _ => rfl
    have later := others.read rest rounds (argument.tree :: found) (by omega) levels
    rw [Arguments.tokens, List.append_assoc, readArguments_succ]
    rw [List.reverse_cons, List.append_assoc] at later
    exact one.and_then later

end

end Grammar

end Worksheet

/-
**How far a reader looks.**

A reader uses up some tokens, none of them the end mark, and looks at the token behind them. What
comes later does not matter: with anything else behind that token the reading goes the same way. A
reading that has succeeded goes the same way even in front of another token, as long as this one
ends an expression.

* `LooksAhead` says this of a reader;
* `looksAhead`: it holds for the readers of leaves and of expressions at every number of levels;
* `ArgumentsRead.ok` and `ArgumentsRead.error`: and for the loop that reads arguments;
* `length_of_readLeaf`, `length_of_readExpr` and `ArgumentsRead.length_lt`: what is read takes a
  token at least.
-/

import Worksheet.Proofs.Expr.Steps

namespace Worksheet

namespace Expr

open Grammar (Stops endsSum)

/-- The tokens start with one that ends an expression in front of it. -/
def EndsExpr (tokens : List Token) : Prop :=
  ∃ token, tokens.head? = some token ∧ endsSum token = true

/-- Behind an expression, the other tokens can stand in place of the rest. -/
def Alike (rest other : List Token) : Prop :=
  other.head? = rest.head? ∨ EndsExpr other

/-- What the reader makes of the tokens depends on those that it uses up and on the next one. -/
structure LooksAhead {α : Type} (read : List Token → Reading α) : Prop where
  ok : ∀ {tokens result rest}, read tokens = .ok (result, rest) →
    ∃ used, tokens = used ++ rest ∧ Token.endMark ∉ used ∧
      ∀ other, Alike rest other → read (used ++ other) = .ok (result, other)
  error : ∀ {tokens failure}, read tokens = .error failure →
    ∃ used, tokens = used ++ failure.rest ∧ Token.endMark ∉ used ∧
      ∀ other, other.head? = failure.rest.head? →
        read (used ++ other) = .error ⟨failure.fault, other⟩

/-! ### Next tokens -/

theorem unexpectedAt_eq {rest other : List Token}
    (same : other.head? = (unexpectedAt rest).rest.head?) :
    unexpectedAt other = ⟨(unexpectedAt rest).fault, other⟩ := by
  rw [unexpectedAt, same]
  rfl

/-- What is no token that ends an expression is not the next one of an alike rest either. -/
theorem Alike.ne {rest other : List Token} (alike : Alike rest other) {refused : Token}
    (noEnd : endsSum refused = false) (noHead : ∀ token ∈ rest.head?, token ≠ refused) :
    ∀ token ∈ other.head?, token ≠ refused := by
  intro token isHead
  rcases alike with same | ⟨last, isLast, ends⟩
  · exact noHead token (same ▸ isHead)
  · rintro rfl
    rw [isLast] at isHead
    cases isHead
    rw [ends] at noEnd
    cases noEnd

theorem Alike.stops {precedence : Nat} {rest other : List Token} (alike : Alike rest other)
    (stops : Stops precedence rest) : Stops precedence other := by
  rintro op behind rfl
  rcases alike with same | ⟨last, isLast, ends⟩
  · obtain ⟨others, rfl⟩ := List.head?_eq_some_iff.mp same.symm
    exact stops op others rfl
  · cases isLast
    cases ends

/-- Behind tokens that stay, what stands in place of the rest is alike as a whole. -/
theorem Alike.append {rest other : List Token} (alike : Alike rest other) (used : List Token) :
    Alike (used ++ rest) (used ++ other) := by
  cases used with
  | nil => exact alike
  | cons token used => exact Or.inl rfl

theorem head?_append_congr {used rest other : List Token} (same : other.head? = rest.head?) :
    (used ++ other).head? = (used ++ rest).head? := by
  rw [List.head?_append, List.head?_append, same]

/-! ### Arguments -/

section Arguments

variable {levels : Nat} {found : List Expr} {tokens : List Token}

/-- Arguments that are read end with their closing bracket, whatever follows. -/
theorem ArgumentsRead.ok (sums : LooksAhead (readExpr levels 0)) {arguments : List Expr}
    {rest : List Token} (read : ArgumentsRead levels found tokens (.ok (arguments, rest))) :
    ∃ used, tokens = used ++ rest ∧ Token.endMark ∉ used ∧
      ∀ other, ArgumentsRead levels found (used ++ other) (.ok (arguments, other)) := by
  generalize result : (.ok (arguments, rest) : Reading (List Expr)) = reading at read
  induction read with
  | last first =>
    cases result
    obtain ⟨used, rfl, noEnd, again⟩ := sums.ok first
    refine ⟨used ++ [Token.closeBracket], by simp, by simp [noEnd], fun other => ?_⟩
    rw [List.append_assoc]
    exact .last (again _ (Or.inl rfl))
  | more first others ih =>
    obtain ⟨usedFirst, rfl, noEndFirst, againFirst⟩ := sums.ok first
    obtain ⟨used, rfl, noEnd, again⟩ := ih result
    refine ⟨usedFirst ++ .comma :: used, by simp, by simp [noEndFirst, noEnd],
      fun other => ?_⟩
    rw [List.append_assoc]
    exact .more (againFirst _ (Or.inl rfl)) (again other)
  | notClosed => cases result
  | failed => cases result

/-- Where arguments cannot be read, this shows at the next token. -/
theorem ArgumentsRead.error (sums : LooksAhead (readExpr levels 0)) {failure : ParseFailure}
    (read : ArgumentsRead levels found tokens (.error failure)) :
    ∃ used, tokens = used ++ failure.rest ∧ Token.endMark ∉ used ∧
      ∀ other, other.head? = failure.rest.head? →
        ArgumentsRead levels found (used ++ other) (.error ⟨failure.fault, other⟩) := by
  generalize result : (.error failure : Reading (List Expr)) = reading at read
  induction read with
  | last => cases result
  | more first others ih =>
    obtain ⟨usedFirst, rfl, noEndFirst, againFirst⟩ := sums.ok first
    obtain ⟨used, rfl, noEnd, again⟩ := ih result
    refine ⟨usedFirst ++ .comma :: used, by simp, by simp [noEndFirst, noEnd],
      fun other same => ?_⟩
    rw [List.append_assoc]
    exact .more (againFirst _ (Or.inl rfl)) (again other same)
  | notClosed first noEnd =>
    cases result
    obtain ⟨used, rfl, noMark, again⟩ := sums.ok first
    refine ⟨used, rfl, noMark, fun other same => ?_⟩
    rw [← unexpectedAt_eq same]
    exact .notClosed (again other (Or.inl same)) (same ▸ noEnd)
  | failed first =>
    cases result
    obtain ⟨used, rfl, noMark, again⟩ := sums.error first
    exact ⟨used, rfl, noMark, fun other same => .failed (again other same)⟩

end Arguments

/-! ### Leaves, expressions and chains -/

/-- A token more in front, which is no end mark. -/
theorem endMark_notMem_cons {token : Token} {used : List Token} (noMark : token ≠ .endMark)
    (none : Token.endMark ∉ used) : Token.endMark ∉ token :: used := by
  rw [List.mem_cons, not_or]
  exact ⟨noMark.symm, none⟩

theorem looksAhead_readLeaf {levels : Nat} (leaves : LooksAhead (readLeaf levels))
    (sums : LooksAhead (readExpr levels 0)) : LooksAhead (readLeaf (levels + 1)) where
  ok {tokens tree rest} read := by
    cases readLeaf_iff.mp read with
    | number good =>
      exact ⟨[.number _], rfl, by simp, fun other _ => readLeaf_iff.mpr (.number good)⟩
    | minus operand =>
      obtain ⟨used, rfl, noMark, again⟩ := leaves.ok operand
      exact ⟨.operator .sub :: used, rfl, endMark_notMem_cons nofun noMark,
        fun other alike => readLeaf_iff.mpr (.minus (again other alike))⟩
    | plus operand =>
      obtain ⟨used, rfl, noMark, again⟩ := leaves.ok operand
      exact ⟨.operator .add :: used, rfl, endMark_notMem_cons nofun noMark,
        fun other alike => readLeaf_iff.mpr (.plus (again other alike))⟩
    | brackets inner =>
      obtain ⟨used, rfl, noMark, again⟩ := sums.ok inner
      refine ⟨.openBracket :: (used ++ [Token.closeBracket]), by simp, by simp [noMark],
        fun other _ => ?_⟩
      rw [List.cons_append, List.append_assoc]
      exact readLeaf_iff.mpr (.brackets (again _ (Or.inl rfl)))
    | name noCall =>
      exact ⟨[.name _], rfl, by simp, fun other alike =>
        readLeaf_iff.mpr (.name (alike.ne rfl noCall))⟩
    | emptyCall =>
      exact ⟨[.name _, .openBracket, .closeBracket], rfl, by simp, fun other _ =>
        readLeaf_iff.mpr .emptyCall⟩
    | call arguments =>
      obtain ⟨used, rfl, noMark, again⟩ := arguments.ok sums
      exact ⟨.name _ :: .openBracket :: used, rfl, by simp [noMark], fun other _ =>
        readLeaf_iff.mpr (.call (again other))⟩
  error {tokens failure} read := by
    cases readLeaf_iff.mp read with
    | malformed bad =>
      refine ⟨[], rfl, List.not_mem_nil, fun other same => ?_⟩
      obtain ⟨behind, rfl⟩ := List.head?_eq_some_iff.mp same
      exact readLeaf_iff.mpr (.malformed bad)
    | signFailed sign operand =>
      obtain ⟨used, rfl, noMark, again⟩ := leaves.error operand
      exact ⟨.operator _ :: used, rfl, endMark_notMem_cons nofun noMark,
        fun other same => readLeaf_iff.mpr (.signFailed sign (again other same))⟩
    | notClosed inner noEnd =>
      obtain ⟨used, rfl, noMark, again⟩ := sums.ok inner
      refine ⟨.openBracket :: used, rfl, endMark_notMem_cons nofun noMark, fun other same => ?_⟩
      rw [← unexpectedAt_eq same]
      exact readLeaf_iff.mpr (.notClosed (again other (Or.inl same)) (same ▸ noEnd))
    | bracketsFailed inner =>
      obtain ⟨used, rfl, noMark, again⟩ := sums.error inner
      exact ⟨.openBracket :: used, rfl, endMark_notMem_cons nofun noMark,
        fun other same => readLeaf_iff.mpr (.bracketsFailed (again other same))⟩
    | callFailed isFirst nonempty arguments =>
      obtain ⟨used, rfl, noMark, again⟩ := arguments.error sums
      refine ⟨.name _ :: .openBracket :: used, rfl, by simp [noMark], fun other same => ?_⟩
      exact readLeaf_iff.mpr (.callFailed ((head?_append_congr same).trans isFirst) nonempty
        (again other same))
    | cutOff =>
      refine ⟨[.name _, .openBracket], rfl, by simp, fun other same => ?_⟩
      cases List.head?_eq_none_iff.mp same
      exact readLeaf_iff.mpr .cutOff
    | noLeaf noStart =>
      refine ⟨[], rfl, List.not_mem_nil, fun other same => ?_⟩
      rw [← unexpectedAt_eq same]
      exact readLeaf_iff.mpr (.noLeaf (same ▸ noStart))

theorem looksAhead_readExpr {levels precedence : Nat} (leaves : LooksAhead (readLeaf levels))
    (chains : ∀ left, LooksAhead (readChain levels precedence left)) :
    LooksAhead (readExpr (levels + 1) precedence) where
  ok {tokens tree rest} read := by
    cases readExpr_iff.mp read with
    | chain leaf chain =>
      obtain ⟨usedLeaf, rfl, noMarkLeaf, againLeaf⟩ := leaves.ok leaf
      obtain ⟨used, rfl, noMark, again⟩ := (chains _).ok chain
      refine ⟨usedLeaf ++ used, by simp, by simp [noMarkLeaf, noMark], fun other alike => ?_⟩
      rw [List.append_assoc]
      exact readExpr_iff.mpr (.chain (againLeaf _ (alike.append used)) (again other alike))
  error {tokens failure} read := by
    cases readExpr_iff.mp read with
    | chain leaf chain =>
      obtain ⟨usedLeaf, rfl, noMarkLeaf, againLeaf⟩ := leaves.ok leaf
      obtain ⟨used, split, noMark, again⟩ := (chains _).error chain
      refine ⟨usedLeaf ++ used, by simp [split], by simp [noMarkLeaf, noMark],
        fun other same => ?_⟩
      rw [List.append_assoc]
      refine readExpr_iff.mpr (.chain (againLeaf _ (Or.inl ?_)) (again other same))
      rw [split]
      exact head?_append_congr same
    | failed leaf =>
      obtain ⟨used, rfl, noMark, again⟩ := leaves.error leaf
      exact ⟨used, rfl, noMark, fun other same => readExpr_iff.mpr (.failed (again other same))⟩

theorem looksAhead_readChain_zero (precedence : Nat) (left : Expr) :
    LooksAhead (readChain 0 precedence left) where
  ok {tokens tree rest} read := by
    cases readChain_iff.mp read with
    | stops stops =>
      exact ⟨[], rfl, List.not_mem_nil, fun other alike =>
        readChain_iff.mpr (.stops (alike.stops stops))⟩
  error {tokens failure} read := by
    cases readChain_iff.mp read with
    | tooDeep binds =>
      refine ⟨[], rfl, List.not_mem_nil, fun other same => ?_⟩
      obtain ⟨behind, rfl⟩ := List.head?_eq_some_iff.mp same
      exact readChain_iff.mpr (.tooDeep binds)

theorem looksAhead_readChain {levels precedence : Nat}
    (sums : ∀ precedence, LooksAhead (readExpr levels precedence))
    (chains : ∀ left, LooksAhead (readChain levels precedence left)) (left : Expr) :
    LooksAhead (readChain (levels + 1) precedence left) where
  ok {tokens tree rest} read := by
    cases readChain_iff.mp read with
    | stops stops =>
      exact ⟨[], rfl, List.not_mem_nil, fun other alike =>
        readChain_iff.mpr (.stops (alike.stops stops))⟩
    | @operator _ op _ _ _ _ binds operand chain =>
      obtain ⟨usedOperand, rfl, noMarkOperand, againOperand⟩ := (sums _).ok operand
      obtain ⟨used, rfl, noMark, again⟩ := (chains _).ok chain
      refine ⟨.operator op :: (usedOperand ++ used), by simp, by simp [noMarkOperand, noMark],
        fun other alike => ?_⟩
      rw [List.cons_append, List.append_assoc]
      exact readChain_iff.mpr
        (.operator binds (againOperand _ (alike.append used)) (again other alike))
  error {tokens failure} read := by
    cases readChain_iff.mp read with
    | @operator _ op _ _ _ _ binds operand chain =>
      obtain ⟨usedOperand, rfl, noMarkOperand, againOperand⟩ := (sums _).ok operand
      obtain ⟨used, split, noMark, again⟩ := (chains _).error chain
      refine ⟨.operator op :: (usedOperand ++ used), by simp [split],
        by simp [noMarkOperand, noMark], fun other same => ?_⟩
      rw [List.cons_append, List.append_assoc]
      refine readChain_iff.mpr (.operator binds (againOperand _ (Or.inl ?_)) (again other same))
      rw [split]
      exact head?_append_congr same
    | failed binds operand =>
      obtain ⟨used, rfl, noMark, again⟩ := (sums _).error operand
      exact ⟨.operator _ :: used, rfl, endMark_notMem_cons nofun noMark,
        fun other same => readChain_iff.mpr (.failed binds (again other same))⟩

/-- **The readers look one token ahead**, at every number of levels. -/
theorem looksAhead (levels : Nat) :
    LooksAhead (readLeaf levels) ∧
      ∀ precedence, LooksAhead (readExpr levels precedence) ∧
        ∀ left, LooksAhead (readChain levels precedence left) := by
  induction levels with
  | zero =>
    refine ⟨⟨fun read => ?_, fun {tokens failure} read => ?_⟩, fun precedence =>
      ⟨⟨fun read => ?_, fun {tokens failure} read => ?_⟩, looksAhead_readChain_zero precedence⟩⟩
    · cases readLeaf_iff.mp read
    · cases readLeaf_iff.mp read
      exact ⟨[], rfl, List.not_mem_nil, fun other _ => readLeaf_iff.mpr .tooDeep⟩
    · cases readExpr_iff.mp read
    · cases readExpr_iff.mp read
      exact ⟨[], rfl, List.not_mem_nil, fun other _ => readExpr_iff.mpr .tooDeep⟩
  | succ levels ih =>
    obtain ⟨leaves, sums⟩ := ih
    exact ⟨looksAhead_readLeaf leaves (sums 0).1, fun precedence =>
      ⟨looksAhead_readExpr leaves (sums precedence).2,
        looksAhead_readChain (fun other => (sums other).1) (sums precedence).2⟩⟩

/-! ### Readers move on -/

section Length

variable {levels precedence : Nat} {tokens rest : List Token} {tree : Expr}

/-- A leaf that is read takes a token at least. -/
theorem length_of_readLeaf (read : readLeaf levels tokens = .ok (tree, rest)) :
    rest.length < tokens.length := by
  obtain ⟨leaf, rfl, -⟩ := (Grammar.spelled levels).1 tokens tree rest read
  obtain ⟨front, last, shape, -⟩ := leaf.exists_last
  rw [shape, List.length_append, List.length_append, List.length_singleton]
  omega

theorem length_of_readChain {left : Expr}
    (read : readChain levels precedence left tokens = .ok (tree, rest)) :
    rest.length ≤ tokens.length := by
  obtain ⟨used, rfl, -⟩ := (((looksAhead levels).2 precedence).2 left).ok read
  rw [List.length_append]
  exact Nat.le_add_left _ _

theorem length_of_readExpr (read : readExpr levels precedence tokens = .ok (tree, rest)) :
    rest.length < tokens.length := by
  cases readExpr_iff.mp read with
  | chain leaf chain => exact (length_of_readChain chain).trans_lt (length_of_readLeaf leaf)

/-- Arguments that are read take a token at least. -/
theorem ArgumentsRead.length_lt {found arguments : List Expr}
    (read : ArgumentsRead levels found tokens (.ok (arguments, rest))) :
    rest.length < tokens.length := by
  generalize result : (.ok (arguments, rest) : Reading (List Expr)) = reading at read
  induction read with
  | last first =>
    cases result
    have shorter := length_of_readExpr first
    rw [List.length_cons] at shorter
    omega
  | more first others ih =>
    have shorter := length_of_readExpr first
    rw [List.length_cons] at shorter
    have less := ih result
    omega
  | notClosed => cases result
  | failed => cases result

end Length

end Expr

end Worksheet

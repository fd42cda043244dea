/-
**What the readers do, case by case.**

Reading a leaf, an expression, a chain of operators or the arguments of a call is opened here once.
Each way that it can go is a constructor, which holds the shape of the tokens, the readings that it
comes down to and what it returns, so that a fact about the readers is proved with one line for each
way. The rounds of the argument loop are gone: a round takes a token at least, so that they never
run out.

* `LeafStep`, `ExprStep` and `ChainStep` are the ways of the three readers, and `ArgumentsRead` is a
  run of the argument loop;
* `readLeaf_iff`, `readExpr_iff`, `readChain_iff` and `readArguments_iff`: the readers return
  exactly what they say.
-/

import Worksheet.Proofs.Expr.Neighbours
import Worksheet.Proofs.Expr.Exactness

namespace Worksheet

/-- The tokens that a leaf can start with. -/
def Token.startsLeaf : Token → Bool
  | .number _ | .name _ | .openBracket | .operator .add | .operator .sub => true
  | _ => false

namespace Expr

open Grammar (Stops exists_operator readChain_stops spelled)

/-! ### The ways of the readers -/

/-- Reading arguments one after another, `found` before them with the latest first. -/
inductive ArgumentsRead (levels : Nat) : List Expr → List Token → Reading (List Expr) → Prop
  | last {found : List Expr} {tokens rest : List Token} {argument : Expr}
      (first : readExpr levels 0 tokens = .ok (argument, .closeBracket :: rest)) :
      ArgumentsRead levels found tokens (.ok ((argument :: found).reverse, rest))
  | more {found : List Expr} {tokens rest : List Token} {argument : Expr}
      {reading : Reading (List Expr)}
      (first : readExpr levels 0 tokens = .ok (argument, .comma :: rest))
      (others : ArgumentsRead levels (argument :: found) rest reading) :
      ArgumentsRead levels found tokens reading
  | notClosed {found : List Expr} {tokens rest : List Token} {argument : Expr}
      (first : readExpr levels 0 tokens = .ok (argument, rest))
      (noEnd : ∀ token ∈ rest.head?, token ≠ .closeBracket ∧ token ≠ .comma) :
      ArgumentsRead levels found tokens (.error (unexpectedAt rest))
  | failed {found : List Expr} {tokens : List Token} {failure : ParseFailure}
      (first : readExpr levels 0 tokens = .error failure) :
      ArgumentsRead levels found tokens (.error failure)

/-- Reading a leaf. -/
inductive LeafStep : Nat → List Token → Reading Expr → Prop
  | tooDeep {tokens : List Token} : LeafStep 0 tokens (.error ⟨.tooDeep, tokens⟩)
  | number {levels : Nat} {digits : Text} {value : Float} {rest : List Token}
      (good : Literal.read? digits = some value) :
      LeafStep (levels + 1) (.number digits :: rest) (.ok (.number value, rest))
  | malformed {levels : Nat} {digits : Text} {rest : List Token}
      (bad : Literal.read? digits = none) :
      LeafStep (levels + 1) (.number digits :: rest)
        (.error ⟨.malformedNumber digits, .number digits :: rest⟩)
  | minus {levels : Nat} {tokens rest : List Token} {operand : Expr}
      (read : readLeaf levels tokens = .ok (operand, rest)) :
      LeafStep (levels + 1) (.operator .sub :: tokens) (.ok (.negate operand, rest))
  | plus {levels : Nat} {tokens rest : List Token} {operand : Expr}
      (read : readLeaf levels tokens = .ok (operand, rest)) :
      LeafStep (levels + 1) (.operator .add :: tokens) (.ok (operand, rest))
  | signFailed {levels : Nat} {op : Operator} {tokens : List Token} {failure : ParseFailure}
      (sign : op = .add ∨ op = .sub) (read : readLeaf levels tokens = .error failure) :
      LeafStep (levels + 1) (.operator op :: tokens) (.error failure)
  | brackets {levels : Nat} {tokens rest : List Token} {inner : Expr}
      (read : readExpr levels 0 tokens = .ok (inner, .closeBracket :: rest)) :
      LeafStep (levels + 1) (.openBracket :: tokens) (.ok (inner, rest))
  | notClosed {levels : Nat} {tokens rest : List Token} {inner : Expr}
      (read : readExpr levels 0 tokens = .ok (inner, rest))
      (noEnd : ∀ token ∈ rest.head?, token ≠ .closeBracket) :
      LeafStep (levels + 1) (.openBracket :: tokens) (.error (unexpectedAt rest))
  | bracketsFailed {levels : Nat} {tokens : List Token} {failure : ParseFailure}
      (read : readExpr levels 0 tokens = .error failure) :
      LeafStep (levels + 1) (.openBracket :: tokens) (.error failure)
  | name {levels : Nat} {word : Text} {rest : List Token}
      (noCall : ∀ token ∈ rest.head?, token ≠ .openBracket) :
      LeafStep (levels + 1) (.name word :: rest) (.ok (.name word, rest))
  | emptyCall {levels : Nat} {function : Text} {rest : List Token} :
      LeafStep (levels + 1) (.name function :: .openBracket :: .closeBracket :: rest)
        (.ok (.call function [], rest))
  | call {levels : Nat} {function : Text} {tokens rest : List Token} {arguments : List Expr}
      (read : ArgumentsRead levels [] tokens (.ok (arguments, rest))) :
      LeafStep (levels + 1) (.name function :: .openBracket :: tokens)
        (.ok (.call function arguments, rest))
  | callFailed {levels : Nat} {function : Text} {first : Token} {tokens : List Token}
      {failure : ParseFailure} (isFirst : tokens.head? = some first)
      (nonempty : first ≠ .closeBracket)
      (read : ArgumentsRead levels [] tokens (.error failure)) :
      LeafStep (levels + 1) (.name function :: .openBracket :: tokens) (.error failure)
  /-- The tokens end where a call begins. -/
  | cutOff {levels : Nat} {function : Text} :
      LeafStep (levels + 1) [.name function, .openBracket] (.error (unexpectedAt []))
  | noLeaf {levels : Nat} {tokens : List Token}
      (noStart : ∀ token ∈ tokens.head?, token.startsLeaf = false) :
      LeafStep (levels + 1) tokens (.error (unexpectedAt tokens))

/-- Reading an expression: a leaf and the operators behind it. -/
inductive ExprStep (precedence : Nat) : Nat → List Token → Reading Expr → Prop
  | tooDeep {tokens : List Token} : ExprStep precedence 0 tokens (.error ⟨.tooDeep, tokens⟩)
  | chain {levels : Nat} {tokens rest : List Token} {first : Expr} {reading : Reading Expr}
      (leaf : readLeaf levels tokens = .ok (first, rest))
      (read : readChain levels precedence first rest = reading) :
      ExprStep precedence (levels + 1) tokens reading
  | failed {levels : Nat} {tokens : List Token} {failure : ParseFailure}
      (leaf : readLeaf levels tokens = .error failure) :
      ExprStep precedence (levels + 1) tokens (.error failure)

/-- Extending an expression by the operators behind it. -/
inductive ChainStep (precedence : Nat) (left : Expr) : Nat → List Token → Reading Expr → Prop
  | stops {levels : Nat} {tokens : List Token} (stops : Stops precedence tokens) :
      ChainStep precedence left levels tokens (.ok (left, tokens))
  | tooDeep {op : Operator} {rest : List Token} (binds : precedence ≤ op.precedence) :
      ChainStep precedence left 0 (.operator op :: rest)
        (.error ⟨.tooDeep, .operator op :: rest⟩)
  | operator {levels : Nat} {op : Operator} {tokens rest : List Token} {right : Expr}
      {reading : Reading Expr} (binds : precedence ≤ op.precedence)
      (operand : readExpr levels (op.precedence + 1) tokens = .ok (right, rest))
      (read : readChain levels precedence (.binary op left right) rest = reading) :
      ChainStep precedence left (levels + 1) (.operator op :: tokens) reading
  | failed {levels : Nat} {op : Operator} {tokens : List Token} {failure : ParseFailure}
      (binds : precedence ≤ op.precedence)
      (operand : readExpr levels (op.precedence + 1) tokens = .error failure) :
      ChainStep precedence left (levels + 1) (.operator op :: tokens) (.error failure)

/-! ### Chains and expressions -/

theorem readChain_iff {levels precedence : Nat} {left : Expr} {tokens : List Token}
    {reading : Reading Expr} :
    readChain levels precedence left tokens = reading ↔
      ChainStep precedence left levels tokens reading := by
  constructor
  · rintro rfl
    by_cases stops : Stops precedence tokens
    · rw [readChain_stops stops]
      exact .stops stops
    · obtain ⟨op, rest, rfl, binds⟩ := exists_operator stops
      cases levels with
      | zero =>
        rw [readChain, if_pos binds]
        exact .tooDeep binds
      | succ levels =>
        rw [readChain, if_pos binds]
        cases operand : readExpr levels (op.precedence + 1) rest with
        | ok result => exact .operator binds operand rfl
        | error failure => exact .failed binds operand
  · intro step
    cases step with
    | stops stops => exact readChain_stops stops levels left
    | tooDeep binds => rw [readChain, if_pos binds]
    | operator binds operand read =>
      rw [readChain, if_pos binds, operand]
      exact read
    | failed binds operand => rw [readChain, if_pos binds, operand]

theorem readExpr_iff {levels precedence : Nat} {tokens : List Token} {reading : Reading Expr} :
    readExpr levels precedence tokens = reading ↔
      ExprStep precedence levels tokens reading := by
  constructor
  · rintro rfl
    cases levels with
    | zero =>
      rw [readExpr]
      exact .tooDeep
    | succ levels =>
      rw [readExpr]
      cases leaf : readLeaf levels tokens with
      | ok result => exact .chain leaf rfl
      | error failure => exact .failed leaf
  · intro step
    cases step with
    | tooDeep => rw [readExpr]
    | chain leaf read =>
      rw [readExpr, leaf]
      exact read
    | failed leaf => rw [readExpr, leaf]

/-! ### Arguments -/

/-- An expression that is read takes a token at least, and does not start with a closing bracket. -/
theorem exists_of_readExpr {levels : Nat} {tokens rest : List Token} {tree : Expr}
    (read : readExpr levels 0 tokens = .ok (tree, rest)) :
    rest.length < tokens.length ∧
      ∃ first others, tokens = first :: others ∧ first ≠ .closeBracket := by
  obtain ⟨sum, rfl, -⟩ := (spelled levels).2.1 0 (Nat.zero_le 3) tokens tree rest read
  obtain ⟨front, last, shape, -⟩ := sum.exists_last
  have nonempty : sum.tokens ++ rest ≠ [] := by simp [shape]
  obtain ⟨first, others, split⟩ := List.exists_cons_of_ne_nil nonempty
  refine ⟨?_, first, others, split, ?_⟩
  · rw [shape, List.length_append, List.length_append, List.length_singleton]
    omega
  · rintro rfl
    exact sum.tokens_ne_closeBracket others rest split

/-- The rounds of the argument loop suffice. -/
theorem readArguments_iff {levels rounds : Nat} {found : List Expr} {tokens : List Token}
    {reading : Reading (List Expr)} (some : 0 < rounds) (enough : tokens.length ≤ rounds) :
    readArguments (readExpr levels 0) rounds found tokens = reading ↔
      ArgumentsRead levels found tokens reading := by
  constructor
  · rintro rfl
    induction rounds generalizing found tokens with
    | zero => exact absurd some (Nat.lt_irrefl 0)
    | succ rounds ih =>
      rw [readArguments]
      split
      next failure first => exact .failed first
      next argument rest first => exact .last first
      next argument rest first =>
        have shorter := (exists_of_readExpr first).1
        rw [List.length_cons] at shorter
        exact .more first (ih (by omega) (by omega))
      next argument rest noClose noComma first =>
        refine .notClosed first fun token isHead => ?_
        obtain ⟨others, rfl⟩ := List.head?_eq_some_iff.mp isHead
        exact ⟨fun same => noClose others (by rw [same]),
          fun same => noComma others (by rw [same])⟩
  · intro read
    induction read generalizing rounds with
    | last first =>
      obtain ⟨rounds, rfl⟩ := Nat.exists_eq_add_of_le' some
      rw [readArguments, first]
    | more first others ih =>
      obtain ⟨rounds, rfl⟩ := Nat.exists_eq_add_of_le' some
      have shorter := (exists_of_readExpr first).1
      rw [List.length_cons] at shorter
      rw [readArguments, first]
      exact ih (by omega) (by omega)
    | @notClosed found tokens rest argument first noEnd =>
      obtain ⟨rounds, rfl⟩ := Nat.exists_eq_add_of_le' some
      rw [readArguments, first]
      split
      next same => cases same
      next same => cases same; exact absurd rfl (noEnd _ rfl).1
      next same => cases same; exact absurd rfl (noEnd _ rfl).2
      next same => cases same; rfl
    | failed first =>
      obtain ⟨rounds, rfl⟩ := Nat.exists_eq_add_of_le' some
      rw [readArguments, first]

/-- As many rounds as there are tokens suffice. -/
theorem readAllArguments_iff {levels : Nat} {first : Token} {tokens : List Token}
    {reading : Reading (List Expr)} :
    readArguments (readExpr levels 0) (first :: tokens).length [] (first :: tokens) = reading ↔
      ArgumentsRead levels [] (first :: tokens) reading :=
  readArguments_iff (Nat.succ_pos _) le_rfl

/-- Reading arguments ends, one way or another. -/
theorem exists_argumentsRead (levels : Nat) (found : List Expr) (tokens : List Token) :
    ∃ reading, ArgumentsRead levels found tokens reading :=
  ⟨_, (readArguments_iff (Nat.succ_pos tokens.length) (Nat.le_succ _)).mp rfl⟩

/-- Arguments that are read do not start with a closing bracket. -/
theorem ArgumentsRead.exists_first {levels : Nat} {found arguments : List Expr}
    {tokens rest : List Token}
    (read : ArgumentsRead levels found tokens (.ok (arguments, rest))) :
    ∃ first others, tokens = first :: others ∧ first ≠ .closeBracket := by
  cases read with
  | last first | more first => exact (exists_of_readExpr first).2

/-! ### Leaves -/

/-- A call, from the opening bracket on: without arguments if a closing one follows. -/
theorem readLeaf_call (levels : Nat) (function : Text) {first : Token}
    (nonempty : first ≠ .closeBracket) (tokens : List Token) :
    readLeaf (levels + 1) (.name function :: .openBracket :: first :: tokens) =
      match readArguments (readExpr levels 0) (first :: tokens).length [] (first :: tokens) with
      | .ok (arguments, rest) => .ok (.call function arguments, rest)
      | .error failure => .error failure := by
  cases first with
  | closeBracket => exact absurd rfl nonempty
  | _ => rfl

/-- A name that no opening bracket follows stands for itself. -/
theorem readLeaf_name (levels : Nat) (word : Text) {rest : List Token}
    (noCall : ∀ token ∈ rest.head?, token ≠ .openBracket) :
    readLeaf (levels + 1) (.name word :: rest) = .ok (.name word, rest) := by
  have other (behind : List Token) : rest ≠ .openBracket :: behind := by
    rintro rfl
    exact noCall _ rfl rfl
  rw [readLeaf]
  · exact fun behind => other _
  · exact other

theorem leafStep_name (levels : Nat) (word : Text) (rest : List Token) :
    LeafStep (levels + 1) (.name word :: rest) (readLeaf (levels + 1) (.name word :: rest)) := by
  by_cases noCall : ∀ token ∈ rest.head?, token ≠ .openBracket
  · rw [readLeaf_name levels word noCall]
    exact .name noCall
  · simp only [ne_eq, not_forall, not_not] at noCall
    obtain ⟨token, isHead, rfl⟩ := noCall
    obtain ⟨behind, rfl⟩ := List.head?_eq_some_iff.mp isHead
    cases behind with
    | nil => exact .cutOff
    | cons first tokens =>
      by_cases empty : first = .closeBracket
      · subst empty
        exact .emptyCall
      · rw [readLeaf_call levels word empty tokens]
        split
        next arguments rest read => exact .call (readAllArguments_iff.mp read)
        next failure read => exact .callFailed rfl empty (readAllArguments_iff.mp read)

/-- What reading a leaf returns is one of the ways. -/
theorem leafStep (levels : Nat) (tokens : List Token) :
    LeafStep levels tokens (readLeaf levels tokens) := by
  cases levels with
  | zero =>
    rw [readLeaf]
    exact .tooDeep
  | succ levels =>
    match tokens with
    | [] => exact .noLeaf nofun
    | .number digits :: rest =>
      rw [readLeaf]
      cases value : Literal.read? digits with
      | some value => exact .number ‹_›
      | none => exact .malformed ‹_›
    | .name word :: rest => exact leafStep_name levels word rest
    | .openBracket :: rest =>
      rw [readLeaf]
      split
      next inner rest read => exact .brackets read
      next inner rest noEnd read =>
        refine .notClosed read fun token isHead same => ?_
        obtain ⟨others, rfl⟩ := List.head?_eq_some_iff.mp isHead
        exact noEnd others (by rw [same])
      next failure read => exact .bracketsFailed read
    | .operator .sub :: rest =>
      rw [readLeaf]
      cases read : readLeaf levels rest with
      | ok result => exact .minus read
      | error failure => exact .signFailed (Or.inr rfl) read
    | .operator .add :: rest =>
      rw [readLeaf]
      cases read : readLeaf levels rest with
      | ok result => exact .plus read
      | error failure => exact .signFailed (Or.inl rfl) read
    | .operator .mul :: _ | .operator .div :: _ | .closeBracket :: _ | .comma :: _
    | .endMark :: _ =>
      refine .noLeaf ?_
      rintro token ⟨⟩
      rfl

/-- A token that starts no leaf cannot stand where one is expected. -/
theorem readLeaf_noLeaf (levels : Nat) {tokens : List Token}
    (noStart : ∀ token ∈ tokens.head?, token.startsLeaf = false) :
    readLeaf (levels + 1) tokens = .error (unexpectedAt tokens) := by
  cases tokens with
  | nil => rfl
  | cons token rest =>
    have starts := noStart token rfl
    cases token with
    | operator op => cases op <;> first | rfl | cases starts
    | closeBracket | comma | endMark => rfl
    | number digits | name word | openBracket => cases starts

theorem readLeaf_iff {levels : Nat} {tokens : List Token} {reading : Reading Expr} :
    readLeaf levels tokens = reading ↔ LeafStep levels tokens reading := by
  constructor
  · rintro rfl
    exact leafStep levels tokens
  · intro step
    cases step with
    | tooDeep => rw [readLeaf]
    | number good => rw [readLeaf, good]
    | malformed bad => rw [readLeaf, bad]
    | minus read => rw [readLeaf, read]
    | plus read => rw [readLeaf, read]
    | signFailed sign read => rcases sign with rfl | rfl <;> rw [readLeaf, read]
    | brackets read => rw [readLeaf, read]
    | notClosed read noEnd =>
      rw [readLeaf, read]
      split
      next same =>
        cases same
        exact absurd rfl (noEnd _ rfl)
      next same =>
        cases same
        rfl
      next same => cases same
    | bracketsFailed read => rw [readLeaf, read]
    | name noCall => exact readLeaf_name _ _ noCall
    | emptyCall => rfl
    | call read =>
      obtain ⟨first, behind, rfl, nonempty⟩ := read.exists_first
      rw [readLeaf_call _ _ nonempty, readAllArguments_iff.mpr read]
    | callFailed isFirst nonempty read =>
      obtain ⟨behind, rfl⟩ := List.head?_eq_some_iff.mp isFirst
      rw [readLeaf_call _ _ nonempty, readAllArguments_iff.mpr read]
    | cutOff => rfl
    | noLeaf noStart => exact readLeaf_noLeaf _ noStart

/-! ### Whole expressions -/

/-- A token that is left over is no end mark. -/
theorem ofTokens_of_ok {tokens rest : List Token} {tree : Expr} {next : Token}
    (read : readExpr levelLimit 0 tokens = .ok (tree, next :: rest)) (noMark : next ≠ .endMark) :
    ofTokens tokens = .error .leftOver := by
  rw [ofTokens, read]
  split
  next same =>
    cases same
    exact absurd rfl noMark
  next => rfl
  next same => cases same

end Expr

end Worksheet

/-
**A fault is reported at the first token that is wrong.**

What stands before the reported token is the beginning of an expression: where a leaf is missing the
numeral `0` can stand, and where something else is wrong a closing bracket can, and closing the
brackets that are still open takes no level. With the reported token behind it, it is the beginning
of none, as the reader has looked at nothing else.

* `ParseFault.Reports`: the token that a fault is about;
* `Mendable`: where the reader finds a fault, the tokens before it can be completed;
* `mendable`: this holds for the readers at every number of levels;
* `ofTokens_error_earliest`: faults of whole expressions, and tokens that are left over.
-/

import Worksheet.Proofs.Expr.Lookahead

namespace Worksheet

/-- The fault is about the token. -/
def ParseFault.Reports (fault : ParseFault) (token : Token) : Prop :=
  fault = .unexpected token ∨
    ∃ digits, fault = .malformedNumber digits ∧ token = .number digits

namespace Expr

open Grammar (Stops endsSum)

/-! ### Completing what has been read -/

/-- The tokens before the failure go on with the filling, which completes them. -/
structure Mended {α : Type} (read : List Token → Reading α → Prop) (tokens : List Token)
    (failure : ParseFailure) (used filling : List Token) : Prop where
  split : tokens = used ++ failure.rest
  reports : ∀ token ∈ failure.rest.head?, failure.fault.Reports token
  noMark : Token.endMark ∉ filling
  completes : ∀ other, EndsExpr other →
    ∃ result, read (used ++ (filling ++ other)) (.ok (result, other))

/-- Where a reading fails for another reason than its levels, what it has used up can be
completed. -/
def Mendable {α : Type} (read : List Token → Reading α → Prop) : Prop :=
  ∀ {tokens failure}, read tokens (.error failure) → failure.fault ≠ .tooDeep →
    ∃ used filling, Mended read tokens failure used filling

/-- The same for the loop over operators, which fails behind an operator only. -/
def ChainMendable (read : List Token → Reading Expr → Prop) : Prop :=
  ∀ {tokens failure}, read tokens (.error failure) → failure.fault ≠ .tooDeep →
    ∃ used filling, used ≠ [] ∧ Mended read tokens failure used filling

/-- The numeral that can stand where a leaf is missing. -/
def anyLeaf : List Token :=
  [.number ['0']]

theorem readLeaf_anyLeaf (levels : Nat) (other : List Token) :
    readLeaf (levels + 1) (anyLeaf ++ other) =
      .ok (.number (Decimal.toFloat ⟨0, 0⟩), other) :=
  rfl

theorem endsExpr_closeBracket (other : List Token) : EndsExpr (.closeBracket :: other) :=
  ⟨.closeBracket, rfl, rfl⟩

theorem EndsExpr.stops {tokens : List Token} (ends : EndsExpr tokens) (precedence : Nat) :
    Stops precedence tokens := by
  rintro op rest rfl
  obtain ⟨token, isHead, ends⟩ := ends
  cases isHead
  cases ends

/-- The token that is unexpected is the next one. -/
theorem reports_unexpectedAt (tokens : List Token) :
    ∀ token ∈ (unexpectedAt tokens).rest.head?, (unexpectedAt tokens).fault.Reports token := by
  intro token isHead
  refine Or.inl ?_
  rw [unexpectedAt] at isHead ⊢
  rw [show tokens.head? = some token from isHead]
  rfl

/-! ### Arguments -/

theorem mendable_arguments {levels : Nat} (ahead : LooksAhead (readExpr levels 0))
    (sums : Mendable (readExpr levels 0 · = ·)) (found : List Expr) :
    Mendable (ArgumentsRead levels found) := by
  intro tokens failure read notDeep
  generalize result : (.error failure : Reading (List Expr)) = reading at read
  induction read with
  | last => cases result
  | more first others ih =>
    obtain ⟨usedFirst, rfl, -, again⟩ := ahead.ok first
    obtain ⟨used, filling, split, reports, noMark, completes⟩ := ih result
    refine ⟨usedFirst ++ .comma :: used, filling, by simp [split], reports, noMark,
      fun other ends => ?_⟩
    obtain ⟨arguments, completed⟩ := completes other ends
    rw [List.append_assoc]
    exact ⟨arguments, .more (again _ (Or.inl rfl)) completed⟩
  | notClosed first noEnd =>
    cases result
    obtain ⟨used, rfl, -, again⟩ := ahead.ok first
    exact ⟨used, [.closeBracket], rfl, reports_unexpectedAt _, by simp, fun other _ =>
      ⟨_, .last (again _ (Or.inr (endsExpr_closeBracket other)))⟩⟩
  | failed first =>
    cases result
    obtain ⟨used, filling, rfl, reports, noMark, completes⟩ := sums first notDeep
    refine ⟨used, filling ++ [Token.closeBracket], rfl, reports, by simp [noMark],
      fun other _ => ?_⟩
    obtain ⟨argument, completed⟩ := completes _ (endsExpr_closeBracket other)
    rw [List.append_assoc]
    exact ⟨_, .last completed⟩

/-! ### Leaves, expressions and chains -/

theorem mendable_readLeaf {levels : Nat} (ahead : LooksAhead (readExpr levels 0))
    (leaves : Mendable (readLeaf levels · = ·)) (sums : Mendable (readExpr levels 0 · = ·)) :
    Mendable (readLeaf (levels + 1) · = ·) := by
  intro tokens failure read notDeep
  cases readLeaf_iff.mp read with
  | malformed bad =>
    refine ⟨[], anyLeaf, rfl, ?_, by simp [anyLeaf], fun other _ =>
      ⟨_, readLeaf_anyLeaf levels other⟩⟩
    rintro token ⟨⟩
    exact Or.inr ⟨_, rfl, rfl⟩
  | @signFailed _ op _ _ sign operand =>
    obtain ⟨used, filling, rfl, reports, noMark, completes⟩ := leaves operand notDeep
    refine ⟨.operator op :: used, filling, rfl, reports, noMark, fun other ends => ?_⟩
    obtain ⟨tree, completed⟩ := completes other ends
    rcases sign with rfl | rfl
    · exact ⟨_, readLeaf_iff.mpr (.plus completed)⟩
    · exact ⟨_, readLeaf_iff.mpr (.minus completed)⟩
  | notClosed inner noEnd =>
    obtain ⟨used, rfl, -, again⟩ := ahead.ok inner
    exact ⟨.openBracket :: used, [.closeBracket], rfl, reports_unexpectedAt _, by simp,
      fun other _ => ⟨_, readLeaf_iff.mpr
        (.brackets (again _ (Or.inr (endsExpr_closeBracket other))))⟩⟩
  | bracketsFailed inner =>
    obtain ⟨used, filling, rfl, reports, noMark, completes⟩ := sums inner notDeep
    refine ⟨.openBracket :: used, filling ++ [Token.closeBracket], rfl, reports, by simp [noMark],
      fun other _ => ?_⟩
    obtain ⟨tree, completed⟩ := completes _ (endsExpr_closeBracket other)
    rw [List.append_assoc]
    exact ⟨_, readLeaf_iff.mpr (.brackets completed)⟩
  | callFailed _ _ arguments =>
    obtain ⟨used, filling, rfl, reports, noMark, completes⟩ :=
      mendable_arguments ahead sums [] arguments notDeep
    refine ⟨.name _ :: .openBracket :: used, filling, rfl, reports, noMark, fun other ends => ?_⟩
    obtain ⟨trees, completed⟩ := completes other ends
    exact ⟨_, readLeaf_iff.mpr (.call completed)⟩
  | @cutOff _ function =>
    exact ⟨[.name function, .openBracket], [.closeBracket], rfl, nofun, by simp, fun other _ =>
      ⟨_, readLeaf_iff.mpr .emptyCall⟩⟩
  | noLeaf noStart =>
    exact ⟨[], anyLeaf, rfl, reports_unexpectedAt _, by simp [anyLeaf], fun other _ =>
      ⟨_, readLeaf_anyLeaf levels other⟩⟩

theorem mendable_readExpr {levels precedence : Nat} (ahead : LooksAhead (readLeaf levels))
    (leaves : Mendable (readLeaf levels · = ·))
    (chains : ∀ left, ChainMendable (readChain levels precedence left · = ·)) :
    Mendable (readExpr (levels + 1) precedence · = ·) := by
  intro tokens failure read notDeep
  cases readExpr_iff.mp read with
  | chain leaf chain =>
    obtain ⟨usedLeaf, rfl, -, again⟩ := ahead.ok leaf
    obtain ⟨used, filling, someUsed, rfl, reports, noMark, completes⟩ := chains _ chain notDeep
    refine ⟨usedLeaf ++ used, filling, by simp, reports, noMark, fun other ends => ?_⟩
    obtain ⟨tree, completed⟩ := completes other ends
    rw [List.append_assoc]
    refine ⟨tree, readExpr_iff.mpr (.chain (again _ (Or.inl ?_)) completed)⟩
    rw [List.head?_append_of_ne_nil _ someUsed, List.head?_append_of_ne_nil _ someUsed]
  | failed leaf =>
    obtain ⟨used, filling, rfl, reports, noMark, completes⟩ := leaves leaf notDeep
    refine ⟨used, filling, rfl, reports, noMark, fun other ends => ?_⟩
    obtain ⟨tree, completed⟩ := completes other ends
    exact ⟨tree, readExpr_iff.mpr
      (.chain completed (readChain_iff.mpr (.stops (ends.stops precedence))))⟩

theorem chainMendable_readChain {levels precedence : Nat}
    (ahead : ∀ precedence, LooksAhead (readExpr levels precedence))
    (sums : ∀ precedence, Mendable (readExpr levels precedence · = ·))
    (chains : ∀ left, ChainMendable (readChain levels precedence left · = ·)) (left : Expr) :
    ChainMendable (readChain (levels + 1) precedence left · = ·) := by
  intro tokens failure read notDeep
  cases readChain_iff.mp read with
  | @operator _ op _ _ _ _ binds operand chain =>
    obtain ⟨usedOperand, rfl, -, again⟩ := (ahead _).ok operand
    obtain ⟨used, filling, someUsed, rfl, reports, noMark, completes⟩ := chains _ chain notDeep
    refine ⟨.operator op :: (usedOperand ++ used), filling, by simp, by simp, reports, noMark,
      fun other ends => ?_⟩
    obtain ⟨tree, completed⟩ := completes other ends
    rw [List.cons_append, List.append_assoc]
    refine ⟨tree, readChain_iff.mpr (.operator binds (again _ (Or.inl ?_)) completed)⟩
    rw [List.head?_append_of_ne_nil _ someUsed, List.head?_append_of_ne_nil _ someUsed]
  | @failed _ op _ _ binds operand =>
    obtain ⟨used, filling, rfl, reports, noMark, completes⟩ := sums _ operand notDeep
    refine ⟨.operator op :: used, filling, by simp, rfl, reports, noMark, fun other ends => ?_⟩
    obtain ⟨tree, completed⟩ := completes other ends
    exact ⟨_, readChain_iff.mpr
      (.operator binds completed (readChain_iff.mpr (.stops (ends.stops precedence))))⟩

/-- **What stands before a fault is the beginning of an expression**, at every number of levels. -/
theorem mendable (levels : Nat) :
    Mendable (readLeaf levels · = ·) ∧
      ∀ precedence, Mendable (readExpr levels precedence · = ·) ∧
        ∀ left, ChainMendable (readChain levels precedence left · = ·) := by
  induction levels with
  | zero =>
    refine ⟨fun read notDeep => ?_, fun precedence =>
      ⟨fun read notDeep => ?_, fun left tokens failure read notDeep => ?_⟩⟩
    · cases readLeaf_iff.mp read
      exact absurd rfl notDeep
    · cases readExpr_iff.mp read
      exact absurd rfl notDeep
    · cases readChain_iff.mp read
      exact absurd rfl notDeep
  | succ levels ih =>
    obtain ⟨leaves, sums⟩ := ih
    have ahead := looksAhead levels
    exact ⟨mendable_readLeaf (ahead.2 0).1 leaves (sums 0).1, fun precedence =>
      ⟨mendable_readExpr ahead.1 leaves (sums precedence).2,
        chainMendable_readChain (fun other => (ahead.2 other).1) (fun other => (sums other).1)
          (sums precedence).2⟩⟩

/-! ### Whole expressions -/

/-- A text of tokens that is the same up to the next token starts with these tokens. -/
theorem exists_of_take_eq {used back other : List Token} {next : Token}
    (same : other.take (used.length + 1) = (used ++ next :: back).take (used.length + 1)) :
    ∃ behind, other = used ++ next :: behind := by
  have upTo : (used ++ next :: back).take (used.length + 1) = used ++ [next] := by
    rw [List.take_length_add_append]
    rfl
  refine ⟨other.drop (used.length + 1), ?_⟩
  conv_lhs => rw [← List.take_append_drop (used.length + 1) other, same, upTo]
  rw [List.append_assoc, List.singleton_append]

/-- What stands behind tokens without an end mark still holds the one at the end. -/
theorem exists_next {body used rest : List Token} (noMark : Token.endMark ∉ used)
    (split : body ++ [Token.endMark] = used ++ rest) :
    ∃ next back, rest = next :: back ∧ used = body.take used.length ∧
      (next ≠ .endMark → used.length < body.length) := by
  have nonempty : rest ≠ [] := by
    rintro rfl
    rw [List.append_nil] at split
    exact noMark (split ▸ List.mem_append_right body (List.mem_singleton.mpr rfl))
  obtain ⟨next, back, rfl⟩ := List.exists_cons_of_ne_nil nonempty
  have short : used.length ≤ body.length := by
    have lengths := congrArg List.length split
    rw [List.length_append, List.length_append, List.length_singleton, List.length_cons] at lengths
    omega
  refine ⟨next, back, rfl, ?_, fun other => lt_of_le_of_ne short fun same => other ?_⟩
  · have taken := congrArg (List.take used.length) split
    rw [List.take_left, List.take_append_of_le_length short] at taken
    exact taken.symm
  · obtain ⟨-, last⟩ := List.append_inj split same.symm
    exact (List.cons.inj last).1.symm

theorem ofTokens_of_error {used rest : List Token} {fault : ParseFault}
    (read : readExpr levelLimit 0 (used ++ rest) = .error ⟨fault, rest⟩) :
    ofTokens (used ++ rest) = .error (.atToken used.length fault) := by
  rw [ofTokens, read]
  dsimp only
  rw [List.length_append, Nat.add_sub_cancel]

section Earliest

variable {body : List Token}

/-- Of a fault that is not for the levels alone, the token is the first one that is wrong. -/
theorem earliest_of_fault {index : Nat} {fault : ParseFault}
    (read : ofTokens (body ++ [Token.endMark]) = .error (.atToken index fault))
    (notDeep : fault ≠ .tooDeep) :
    (∃ token, (body ++ [Token.endMark])[index]? = some token ∧ fault.Reports token) ∧
      (∃ filling, Token.endMark ∉ filling ∧
        ∃ tree, ofTokens (body.take index ++ (filling ++ [Token.endMark])) = .ok tree) ∧
      ∀ other, other.take (index + 1) = (body ++ [Token.endMark]).take (index + 1) →
        ofTokens other = .error (.atToken index fault) := by
  cases reading : readExpr levelLimit 0 (body ++ [Token.endMark]) with
  | ok result =>
    rw [ofTokens, reading] at read
    split at read
    next => cases read
    next => cases read
    next same => cases same
  | error failure =>
    obtain ⟨used, split, noMark, again⟩ := ((looksAhead levelLimit).2 0).1.error reading
    obtain ⟨next, back, isRest, isPart, -⟩ := exists_next noMark split
    have isFailure : failure = ⟨failure.fault, next :: back⟩ := by rw [← isRest]
    rw [isRest] at split again
    rw [split, isFailure] at reading
    rw [split, ofTokens_of_error reading] at read
    cases read
    obtain ⟨usedAgain, filling, sameSplit, reports, noFilling, completes⟩ :=
      ((mendable levelLimit).2 0).1 reading notDeep
    cases List.append_cancel_right sameSplit
    obtain ⟨tree, completed⟩ := completes [Token.endMark] ⟨.endMark, rfl, rfl⟩
    refine ⟨⟨next, ?_, reports next rfl⟩, ⟨filling, noFilling, tree, ?_⟩, fun other same => ?_⟩
    · rw [split, List.getElem?_append_right le_rfl, Nat.sub_self]
      rfl
    · rw [← isPart, ofTokens, completed]
    · rw [split] at same
      obtain ⟨behind, rfl⟩ := exists_of_take_eq same
      exact ofTokens_of_error (again _ rfl)

/-- Tokens that are left over stand behind an expression, with which they do not go on. -/
theorem earliest_of_leftOver (read : ofTokens (body ++ [Token.endMark]) = .error .leftOver) :
    ∃ count < body.length,
      (∃ tree, ofTokens (body.take count ++ [Token.endMark]) = .ok tree) ∧
      ∀ other, other.take (count + 1) = body.take (count + 1) →
        ofTokens other = .error .leftOver := by
  cases reading : readExpr levelLimit 0 (body ++ [Token.endMark]) with
  | error failure =>
    rw [ofTokens, reading] at read
    cases read
  | ok result =>
    obtain ⟨tree, rest⟩ := result
    obtain ⟨used, split, noMark, again⟩ := ((looksAhead levelLimit).2 0).1.ok reading
    obtain ⟨next, back, rfl, isPart, inBody⟩ := exists_next noMark split
    have other : next ≠ .endMark := by
      rintro rfl
      rw [ofTokens, reading] at read
      cases read
    refine ⟨used.length, inBody other, ⟨tree, ?_⟩, fun tokens same => ?_⟩
    · rw [← isPart, ofTokens, again [Token.endMark] (Or.inr ⟨.endMark, rfl, rfl⟩)]
    · have kept : (body ++ [Token.endMark]).take (used.length + 1) = body.take (used.length + 1) :=
        List.take_append_of_le_length (inBody other)
      rw [← kept, split] at same
      obtain ⟨behind, rfl⟩ := exists_of_take_eq same
      exact ofTokens_of_ok (again _ (Or.inl rfl)) other

end Earliest

/-- **A fault is reported at the first token that is wrong.** If the tokens in front of an end mark
are no expression, and not for their levels alone, then the fault is about the token at which it is
reported; what stands before this token can be completed to an expression; and all tokens that are
the same up to this token and with it have the same fault. If tokens are left over, then those
before the first of them are an expression, and tokens are left over wherever all is the same up to
this one. -/
theorem ofTokens_error_earliest (body : List Token) :
    (∀ index fault, ofTokens (body ++ [Token.endMark]) = .error (.atToken index fault) →
      fault ≠ .tooDeep →
        (∃ token, (body ++ [Token.endMark])[index]? = some token ∧ fault.Reports token) ∧
        (∃ filling, Token.endMark ∉ filling ∧
          ∃ tree, ofTokens (body.take index ++ (filling ++ [Token.endMark])) = .ok tree) ∧
        ∀ other, other.take (index + 1) = (body ++ [Token.endMark]).take (index + 1) →
          ofTokens other = .error (.atToken index fault)) ∧
    (ofTokens (body ++ [Token.endMark]) = .error .leftOver →
      ∃ count < body.length,
        (∃ tree, ofTokens (body.take count ++ [Token.endMark]) = .ok tree) ∧
        ∀ other, other.take (count + 1) = body.take (count + 1) →
          ofTokens other = .error .leftOver) :=
  ⟨fun _ _ => earliest_of_fault, earliest_of_leftOver⟩

/-- The tokens of `f(2, * 3`. -/
def missingArgument : List Token :=
  [.name ['f'], .openBracket, .number ['2'], .comma, .operator .mul, .number ['3']]

/-- The tokens of `f 2`. -/
def nameAndNumber : List Token :=
  [.name ['f'], .number ['2']]

/-- Where an argument is missing, the operator is reported, and not the bracket that is missing
behind it; `f(2,` can be completed, and nothing that starts with `f(2, *`. In `f 2` the number is
left over behind `f`. -/
theorem ofTokens_error_earliest_missingArgument :
    (ofTokens (missingArgument ++ [Token.endMark]) =
        .error (.atToken 4 (.unexpected (.operator .mul))) ∧
      (∃ filling, Token.endMark ∉ filling ∧
        ∃ tree, ofTokens (missingArgument.take 4 ++ (filling ++ [Token.endMark])) = .ok tree) ∧
      ∀ other, other.take 5 = missingArgument.take 5 →
        ofTokens other = .error (.atToken 4 (.unexpected (.operator .mul)))) ∧
    ofTokens (nameAndNumber ++ [Token.endMark]) = .error .leftOver ∧
      ∃ count < 2, ∃ tree, ofTokens (nameAndNumber.take count ++ [Token.endMark]) = .ok tree := by
  have wrong : ofTokens (missingArgument ++ [Token.endMark]) =
      .error (.atToken 4 (.unexpected (.operator .mul))) := rfl
  have leftOver : ofTokens (nameAndNumber ++ [Token.endMark]) = .error .leftOver := rfl
  obtain ⟨-, completed, dead⟩ := (ofTokens_error_earliest missingArgument).1 _ _ wrong nofun
  obtain ⟨count, small, isExpr, -⟩ := (ofTokens_error_earliest _).2 leftOver
  exact ⟨⟨wrong, completed, dead⟩, leftOver, count, small, isExpr⟩

end Expr

end Worksheet

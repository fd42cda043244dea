/-
**Reading with a cursor neither crashes nor loops.**

* `readersSafe`: no walk that starts in front of an end mark looks behind it, and its calls need not
  be nested deeper than a multiple of the number of tokens; what is read moves the cursor on and
  leaves the counter of levels as it was;
* `whole_safe`: this holds of the walk over all tokens too, which reads what the readers read.
-/

import Worksheet.Proofs.Expr.WalkReading

namespace Worksheet

namespace Walk

open Worksheet.Expr (readLeaf readExpr readChain readArguments)

/-! ### No walk crashes -/

/-- The walk has not stopped for want of a token or of a level to give back. -/
structure NoCrash {α : Type} (outcome : Except Halt α) : Prop where
  inBounds : outcome ≠ .error .outOfBounds
  noUnderflow : outcome ≠ .error .underflow

theorem noCrash_ok {α : Type} (result : α) : NoCrash (.ok result) :=
  ⟨nofun, nofun⟩

theorem noCrash_fault {α : Type} (fault : ParseFault) :
    NoCrash (.error (.fault fault) : Except Halt α) :=
  ⟨nofun, nofun⟩

theorem noCrash_leftOver {α : Type} : NoCrash (.error .leftOver : Except Halt α) :=
  ⟨nofun, nofun⟩

/-- A walk has ended in bounds: without a crash, not behind the first end mark, and it has not
looked past it. -/
structure EndedWithin (tokens : List Token) (start : Cursor) {α : Type} (outcome : Except Halt α)
    (last : Cursor) : Prop where
  noCrash : NoCrash outcome
  position_le : last.position ≤ tokens.idxOf .endMark
  visited_le : ∀ index ∈ last.visited, index ∈ start.visited ∨ index ≤ tokens.idxOf .endMark

/-- However many levels are left, calls need not be nested deeper than this. -/
def callLimit (tokens : List Token) : Nat :=
  (levelLimit + 1) * (tokens.length + 3)

/-- The walk ends in bounds, always in the same way if calls may be nested so deep as `callLimit`
says or deeper; and if it succeeds, then with this result and at this cursor. -/
def Safe (tokens : List Token) (start : Cursor) {α : Type} (walks : Nat → Walk α)
    (goal : α → Cursor → Prop) : Prop :=
  ∃ outcome last, (∀ calls, callLimit tokens ≤ calls → walks calls start = some (outcome, last)) ∧
    EndedWithin tokens start outcome last ∧ ∀ result, outcome = .ok result → goal result last

/-- From `start` on, `read` reads this result up to the last position, which is a later one, and as
many levels are taken as before. -/
structure MovedOn (tokens : List Token) (start : Cursor) {α : Type} (read : List Token → Reading α)
    (result : α) (last : Cursor) : Prop where
  reads : read (tokens.drop start.position) = .ok (result, tokens.drop last.position)
  depth_eq : last.depth = start.depth
  position_lt : start.position < last.position

/-- From `start` on, `read` reads this tree up to the last position, and a level more is taken for
every operator that was counted on top of `absorbed`. -/
structure Absorbed (tokens : List Token) (start : Cursor) (read : List Token → Reading Expr)
    (absorbed : Nat) (result : Expr × Nat) (last : Cursor) : Prop where
  reads : read (tokens.drop start.position) = .ok (result.1, tokens.drop last.position)
  depth_eq : last.depth + absorbed = start.depth + result.2
  absorbed_le : absorbed ≤ result.2
  position_le : start.position ≤ last.position

section Safe

variable {α : Type} {tokens body more coming rest : List Token} {walks : Nat → Walk α}
  {cursor : Cursor} {outcome : Except Halt α} {depth : Nat}

theorem enough_le_callLimit (tokens : List Token) {levels : Nat} (le : levels ≤ levelLimit) :
    enough tokens levels + tokens.length + 1 ≤ callLimit tokens := by
  have most : levels * (tokens.length + 3) ≤ levelLimit * (tokens.length + 3) :=
    Nat.mul_le_mul_right _ le
  rw [enough, callLimit, Nat.succ_mul]
  omega

/-- The walks have the same outcome if calls may be nested deeper than `callLimit` says. -/
def Settled (tokens : List Token) (walks : Nat → Walk α) : Prop :=
  ∀ calls, callLimit tokens ≤ calls → ExtendedBy (walks (callLimit tokens)) (walks calls)

theorem idxOf_endMark (noMark : .endMark ∉ body) :
    (body ++ .endMark :: more).idxOf .endMark = body.length := by
  rw [List.idxOf_append_of_notMem noMark, List.idxOf_cons_self, Nat.add_zero]

/-- In front of the end mark, a cursor stands in front of some tokens. -/
theorem standing_of_le {cursor : Cursor} (inside : cursor.position ≤ body.length) :
    Standing body more (body.drop cursor.position ++ .endMark :: more) cursor :=
  ⟨body.take cursor.position, body.drop cursor.position, (List.take_append_drop _ _).symm, rfl,
    (List.length_take_of_le inside).symm⟩

theorem Runs.safe
    (runs : Runs body more (walks (callLimit (body ++ .endMark :: more))) cursor outcome rest depth)
    (settled : Settled (body ++ .endMark :: more) walks) (noMark : .endMark ∉ body)
    (noCrash : NoCrash outcome) {goal : α → Cursor → Prop}
    (reached : ∀ result last, outcome = .ok result → Standing body more rest last →
      last.depth = depth → goal result last) :
    Safe (body ++ .endMark :: more) cursor walks goal := by
  obtain ⟨last, ended, standing, taken, looked⟩ := runs
  refine ⟨outcome, last, fun calls deep => settled calls deep ended, ⟨noCrash, ?_, ?_⟩,
    fun result isOk => reached result last isOk standing (taken result isOk)⟩
  · rw [idxOf_endMark noMark]
    exact standing.position_le
  · rw [idxOf_endMark noMark]
    exact looked

/-- What is behind fewer tokens stands further on. -/
theorem Standing.position_lt {last : Cursor} (standing : Standing body more coming cursor)
    (standingLast : Standing body more rest last) (shorter : rest.length < coming.length) :
    cursor.position < last.position := by
  have whole := standing.length_coming
  have wholeLast := standingLast.length_coming
  omega

theorem Standing.position_mono {last : Cursor} (standing : Standing body more coming cursor)
    (standingLast : Standing body more rest last) (shorter : rest.length ≤ coming.length) :
    cursor.position ≤ last.position := by
  have whole := standing.length_coming
  have wholeLast := standingLast.length_coming
  omega

theorem Follows.safe {read : List Token → Reading α} {reading : Reading α}
    (follows : Follows body more (walks (callLimit (body ++ .endMark :: more))) cursor depth
      reading)
    (settled : Settled (body ++ .endMark :: more) walks)
    (noMark : .endMark ∉ body) (standing : Standing body more coming cursor)
    (taken : cursor.depth = depth) (reads : read coming = reading)
    (shorter : ∀ result rest, reading = .ok (result, rest) → rest.length < coming.length) :
    Safe (body ++ .endMark :: more) cursor walks
      (MovedOn (body ++ .endMark :: more) cursor read) := by
  cases reading with
  | error failure =>
    exact Runs.safe follows settled noMark (noCrash_fault _) fun _ _ isOk => nomatch isOk
  | ok result =>
    refine Runs.safe follows settled noMark (noCrash_ok _)
      fun result last isOk standingLast takenLast => ?_
    cases isOk
    refine ⟨?_, takenLast.trans taken.symm, standing.position_lt standingLast (shorter _ _ rfl)⟩
    rw [standing.drop_eq, standingLast.drop_eq, reads]

theorem Loops.safe {walks : Nat → Walk (Expr × Nat)} {absorbed : Nat}
    {read : List Token → Reading Expr}
    (loops : Loops body more (walks (callLimit (body ++ .endMark :: more))) cursor depth absorbed
      (read coming))
    (settled : Settled (body ++ .endMark :: more) walks) (noMark : .endMark ∉ body)
    (standing : Standing body more coming cursor) (taken : cursor.depth = depth)
    (shorter : ∀ tree rest, read coming = .ok (tree, rest) → rest.length ≤ coming.length) :
    Safe (body ++ .endMark :: more) cursor walks
      (Absorbed (body ++ .endMark :: more) cursor read absorbed) := by
  cases reads : read coming with
  | error failure =>
    rw [reads] at loops
    exact Runs.safe loops settled noMark (noCrash_fault _) fun _ _ isOk => nomatch isOk
  | ok result =>
    rw [reads] at loops
    obtain ⟨count, runs⟩ := loops
    refine runs.safe settled noMark (noCrash_ok _) fun result last isOk standingLast takenLast => ?_
    cases isOk
    refine ⟨?_, ?_, Nat.le_add_right _ _,
      standing.position_mono standingLast (shorter _ _ reads)⟩
    · rw [standing.drop_eq, standingLast.drop_eq, reads]
    · rw [takenLast, taken, Nat.add_right_comm, Nat.add_assoc]

/-- The walk over all tokens says of them what the reader says. -/
theorem runs_whole {calls : Nat} (deep : enough (body ++ .endMark :: more) levelLimit ≤ calls) :
    ∃ outcome rest, Runs body more (whole (body ++ .endMark :: more) calls) .start outcome rest 0 ∧
      NoCrash outcome ∧ ∀ last, Standing body more rest last →
        report? (outcome, last) = some (Expr.ofTokens (body ++ .endMark :: more)) := by
  have standing : Standing body more (body ++ .endMark :: more) .start := ⟨[], body, rfl, rfl, rfl⟩
  have exprs := ((mirrors body more levelLimit).2 0).1
  unfold whole
  cases reading : readExpr levelLimit 0 (body ++ .endMark :: more) with
  | error failure =>
    refine ⟨.error (.fault failure.fault), failure.rest,
      (exprs.error reading deep standing rfl rfl).fail 0, noCrash_fault _,
      fun last standingLast => ?_⟩
    have position : last.position = (body ++ .endMark :: more).length - failure.rest.length := by
      rw [← standingLast.length_coming, Nat.add_sub_cancel]
    rw [report?, Expr.ofTokens, reading, position]
  | ok result =>
    obtain ⟨tree, rest⟩ := result
    have first := exprs.ok reading deep standing rfl rfl
    obtain ⟨token, others, rfl⟩ := first.exists_cons
    by_cases atEnd : token = .endMark
    · subst atEnd
      refine ⟨.ok tree, .endMark :: others, first.bind fun cursor standing taken => ?_,
        noCrash_ok tree, fun last _ => ?_⟩
      · refine (runs_current standing taken).bind fun cursor standing taken => ?_
        rw [if_pos rfl]
        exact runs_pure tree standing taken
      · rw [report?, Expr.ofTokens, reading]
    · refine ⟨.error .leftOver, token :: others, first.bind fun cursor standing taken => ?_,
        noCrash_leftOver, fun last _ => ?_⟩
      · refine (runs_current standing taken).bind fun cursor standing taken => ?_
        rw [if_neg atEnd]
        exact runs_throw _ standing 0
      · rw [report?, Expr.ofTokens_of_ok reading atEnd]

theorem settled_whole (tokens : List Token) : Settled tokens (whole tokens) :=
  fun _ deep => ((extendedBy_of_le tokens deep).2.2.1 0).bind fun _ => .refl _

/-- A leaf, an expression and the arguments of a call are read as the reader reads them, move on and
leave the number of levels as it was; the loop over operators leaves a level for each operator that
it has counted, which the expression around it gives back. -/
structure ReadersSafe (tokens : List Token) (start : Cursor) : Prop where
  leaf_safe : Safe tokens start (leaf tokens)
    (MovedOn tokens start (readLeaf (levelLimit - start.depth)))
  expr_safe : ∀ precedence, Safe tokens start (expr tokens · precedence)
    (MovedOn tokens start (readExpr (levelLimit - start.depth) precedence))
  arguments_safe : ∀ found, Safe tokens start (arguments tokens · found)
    (MovedOn tokens start fun coming =>
      readArguments (readExpr (levelLimit - start.depth) 0) coming.length found coming)
  chain_safe : ∀ precedence left absorbed,
    Safe tokens start (chain tokens · precedence left absorbed)
      (Absorbed tokens start (readChain (levelLimit - start.depth) precedence left) absorbed)

/-- Wherever they start in front of the first end mark, the readers end in bounds. -/
theorem readersSafe (noMark : .endMark ∉ body) (inside : cursor.position ≤ body.length) :
    ReadersSafe (body ++ .endMark :: more) cursor := by
  have standing : Standing body more _ cursor := standing_of_le inside
  obtain ⟨leaves, sums⟩ := mirrors body more (levelLimit - cursor.depth)
  have room := enough_le_callLimit (body ++ .endMark :: more) (Nat.sub_le levelLimit cursor.depth)
  have deep : enough (body ++ .endMark :: more) (levelLimit - cursor.depth) ≤
    callLimit (body ++ .endMark :: more) := by omega
  have extended (calls : Nat) (deeper : callLimit (body ++ .endMark :: more) ≤ calls) :=
    extendedBy_of_le (body ++ .endMark :: more) deeper
  refine ⟨?_, fun precedence => ?_, fun found => ?_, fun precedence left absorbed => ?_⟩
  · exact (leaves _ _ cursor _ deep standing rfl rfl).safe (fun calls deeper =>
      (extended calls deeper).1) noMark standing rfl rfl fun tree rest => Expr.length_of_readLeaf
  · exact ((sums precedence).1 _ _ cursor _ deep standing rfl rfl).safe (fun calls deeper =>
      (extended calls deeper).2.2.1 precedence) noMark standing rfl rfl
        fun tree rest => Expr.length_of_readExpr
  · obtain ⟨reading, read⟩ := Expr.exists_argumentsRead (levelLimit - cursor.depth) found
      (body.drop cursor.position ++ .endMark :: more)
    have whole := standing.length_coming
    obtain ⟨calls, limit⟩ : ∃ calls, callLimit (body ++ .endMark :: more) = calls + 1 :=
      Nat.exists_eq_add_one.mpr (by omega)
    have follows : Follows body more
        (arguments (body ++ .endMark :: more) (callLimit (body ++ .endMark :: more)) found) cursor
        cursor.depth reading := by
      rw [limit]
      exact follows_arguments (sums 0).1 read (by omega) standing rfl rfl
    refine follows.safe (fun calls deeper => (extended calls deeper).2.1 found) noMark standing rfl
      ((Expr.readArguments_iff (List.length_pos_of_mem standing.endMark_mem) le_rfl).mpr read) ?_
    rintro trees rest rfl
    exact read.length_lt
  · exact ((sums precedence).2 _ left absorbed _ cursor _ deep standing rfl rfl).safe
      (fun calls deeper => (extended calls deeper).2.2.2 precedence left absorbed) noMark standing
        rfl fun tree rest => Expr.length_of_readChain

end Safe

/-- **Reading neither crashes nor loops.** If there is an end mark, then the walk over all tokens
ends in bounds and says what the reader says. Wherever they start in front of the first end mark,
and with whatever levels taken, a leaf, an expression, the arguments of a call and the loop over
operators end in bounds; what is read moves the cursor on, and the levels taken for it are given
back. -/
theorem whole_safe {tokens : List Token} (ended : .endMark ∈ tokens) :
    (Safe tokens .start (whole tokens) fun _ last => last.depth = 0) ∧
    (∀ calls, callLimit tokens ≤ calls →
      (whole tokens calls .start).bind report? = some (Expr.ofTokens tokens)) ∧
    ∀ start : Cursor, start.position ≤ tokens.idxOf .endMark → ReadersSafe tokens start := by
  obtain ⟨body, more, rfl, noMark⟩ := List.eq_append_cons_of_mem ended
  have room : enough (body ++ .endMark :: more) levelLimit ≤
      callLimit (body ++ .endMark :: more) := by
    have most := enough_le_callLimit (body ++ .endMark :: more) (Nat.le_refl levelLimit)
    omega
  refine ⟨?_, fun calls deep => ?_, fun start inside => ?_⟩
  · obtain ⟨outcome, rest, runs, noCrash, -⟩ := runs_whole room
    exact runs.safe (settled_whole _) noMark noCrash fun _ _ _ _ taken => taken
  · obtain ⟨outcome, rest, ⟨last, ends, standing, -⟩, -, reports⟩ :=
      runs_whole (Nat.le_trans room deep)
    rw [ends]
    exact reports last standing
  · rw [idxOf_endMark noMark] at inside
    exact readersSafe noMark inside

/-- The tokens of `2 * (-x)`. -/
def signInBrackets : List Token :=
  [.number ['2'], .operator .mul, .openBracket, .operator .sub, .name ['x'], .closeBracket,
    .endMark]

/-- At the opening bracket of `2 * (-x)` and with three levels taken, the walk over a leaf ends in
bounds; when it has read the brackets it stands further on, with three levels taken. -/
theorem whole_safe_signInBrackets :
    Token.endMark ∈ signInBrackets ∧ 2 ≤ signInBrackets.idxOf .endMark ∧
      Safe signInBrackets ⟨2, 3, []⟩ (leaf signInBrackets)
        (MovedOn signInBrackets ⟨2, 3, []⟩ (readLeaf 497)) := by
  have ended : Token.endMark ∈ signInBrackets := by decide
  have inside : 2 ≤ signInBrackets.idxOf .endMark := by decide
  exact ⟨ended, inside, ((whole_safe ended).2.2 ⟨2, 3, []⟩ inside).leaf_safe⟩

end Walk

end Worksheet

/-
**Walks over tokens.**

The readers of expressions take the tokens and the levels that remain and return what remains of the
tokens. The same reading can be done by a walk over the tokens with a cursor: a position that only
moves forward, and a counter of levels that is raised where a level is taken and lowered where it is
given back. Such a walk could look at a position that has no token, give back more levels than it
has taken, or loop.

* `Walk` is a computation on a cursor, which notes the positions that it looks at;
* `Walk.leaf`, `Walk.expr`, `Walk.chain`, `Walk.arguments` and `Walk.whole` are the readers as
  walks. Their calls may be nested so many deep, and a walk has no outcome where that is not deep
  enough;
* `Runs` says how a walk ends, with one lemma for each move of the cursor.
-/

import Worksheet.Expr.Parser

namespace Worksheet

/-- Where a walk stands, the levels that it has taken, and the positions that it has looked at. -/
structure Cursor where
  position : Nat
  depth : Nat
  visited : List Nat

namespace Cursor

/-- In front of all tokens. -/
def start : Cursor :=
  ⟨0, 0, []⟩

/-- The cursor has looked at its position. -/
def look (cursor : Cursor) : Cursor :=
  { cursor with visited := cursor.position :: cursor.visited }

/-- One token further. -/
def next (cursor : Cursor) : Cursor :=
  { cursor with position := cursor.position + 1 }

/-- With another number of levels taken. -/
def atDepth (cursor : Cursor) (depth : Nat) : Cursor :=
  { cursor with depth }

end Cursor

/-- Why a walk has stopped before its end. -/
inductive Halt where
  | fault (fault : ParseFault)
  /-- Tokens stand behind the expression. -/
  | leftOver
  /-- The position has no token. -/
  | outOfBounds
  /-- More levels were given back than had been taken. -/
  | underflow

/-- A computation on a cursor, which may have no outcome. -/
abbrev Walk (α : Type) : Type :=
  ExceptT Halt (StateT Cursor Option) α

namespace Walk

open Worksheet.Expr (unexpectedAt)

/-! ### Single moves -/

/-- Goes on with what there is, and stops if there is nothing. -/
def require {α : Type} (found : Option α) (halt : Halt) : Walk α :=
  match found with
  | some result => return result
  | none => throw halt

/-- The token at the position. -/
def current (tokens : List Token) : Walk Token := do
  let cursor ← get
  set cursor.look
  require tokens[cursor.position]? .outOfBounds

/-- Goes on to the next token. -/
def advance : Walk Unit :=
  modify Cursor.next

/-- Takes a level. -/
def descend : Walk Unit := do
  let cursor ← get
  set (cursor.atDepth (cursor.depth + 1))
  if levelLimit < cursor.depth + 1 then throw (.fault .tooDeep)

/-- Gives levels back. -/
def ascend (levels : Nat) : Walk Unit := do
  let cursor ← get
  if levels ≤ cursor.depth then set (cursor.atDepth (cursor.depth - levels))
  else throw .underflow

/-- Goes on behind a token that is expected. -/
def expect (tokens : List Token) (expected : Token → Bool) : Walk Token := do
  let token ← current tokens
  if expected token then
    advance
    return token
  else throw (.fault (.unexpected token))

/-- There is no telling how the walk goes on. -/
def noOutcome {α : Type} : Walk α :=
  fun _ => none

/-! ### The readers as walks

The number `calls` says how deep calls may still be nested. -/

mutual

/-- Reads a leaf. -/
def leaf (tokens : List Token) : (calls : Nat) → Walk Expr
  | 0 => noOutcome
  | calls + 1 => do
    descend
    let tree ← content tokens calls (← current tokens)
    ascend 1
    return tree

/-- Reads the leaf that starts with the given token. -/
def content (tokens : List Token) : (calls : Nat) → Token → Walk Expr
  | 0, _ => noOutcome
  | calls + 1, .openBracket => do
    advance
    let inner ← expr tokens calls 0
    let _ ← expect tokens (· = .closeBracket)
    return inner
  | calls + 1, .operator .sub => do
    advance
    return .negate (← leaf tokens calls)
  | calls + 1, .operator .add => do
    advance
    leaf tokens calls
  | _ + 1, .number digits => do
    let value ← require (Literal.read? digits) (.fault (.malformedNumber digits))
    advance
    return .number value
  | calls + 1, .name word => do
    advance
    if (← current tokens) = .openBracket then
      advance
      if (← current tokens) = .closeBracket then
        advance
        return .call word []
      else return .call word (← arguments tokens calls [])
    else return .name word
  | _ + 1, token => throw (.fault (.unexpected token))

/-- Reads one argument after another, `found` before them with the latest first. -/
def arguments (tokens : List Token) : (calls : Nat) → (found : List Expr) → Walk (List Expr)
  | 0, _ => noOutcome
  | calls + 1, found => do
    let argument ← expr tokens calls 0
    let token ← expect tokens fun token => token = .closeBracket || token = .comma
    if token = .closeBracket then return (argument :: found).reverse
    else arguments tokens calls (argument :: found)

/-- Reads an expression whose operators bind at least as tight as `precedence`. -/
def expr (tokens : List Token) : (calls : Nat) → (precedence : Nat) → Walk Expr
  | 0, _ => noOutcome
  | calls + 1, precedence => do
    descend
    let first ← leaf tokens calls
    let (tree, absorbed) ← chain tokens calls precedence first 0
    ascend (1 + absorbed)
    return tree

/-- Extends `left` by the operators behind it and counts them. -/
def chain (tokens : List Token) :
    (calls precedence : Nat) → (left : Expr) → (absorbed : Nat) → Walk (Expr × Nat)
  | 0, _, _, _ => noOutcome
  | calls + 1, precedence, left, absorbed => do
    match ← current tokens with
    | .operator op =>
      if precedence ≤ op.precedence then
        descend
        advance
        let right ← expr tokens calls (op.precedence + 1)
        chain tokens calls precedence (.binary op left right) (absorbed + 1)
      else return (left, absorbed)
    | _ => return (left, absorbed)

end

/-- Reads an expression with nothing behind it. -/
def whole (tokens : List Token) (calls : Nat) : Walk Expr := do
  let tree ← expr tokens calls 0
  if (← current tokens) = .endMark then return tree else throw .leftOver

/-- What a walk over the whole tokens says of them, if it has not crashed. -/
def report? : Except Halt Expr × Cursor → Option (Except ParseError Expr)
  | (.ok tree, _) => some (.ok tree)
  | (.error (.fault fault), cursor) => some (.error (.atToken cursor.position fault))
  | (.error .leftOver, _) => some (.error .leftOver)
  | (.error .outOfBounds, _) => none
  | (.error .underflow, _) => none

/-! ### How walks end -/

section Runs

variable {α β : Type} (body more : List Token)

/-- The cursor stands in front of the tokens that are coming, the end mark behind `body` among
them. -/
def Standing (coming : List Token) (cursor : Cursor) : Prop :=
  ∃ past ahead, body = past ++ ahead ∧ coming = ahead ++ .endMark :: more ∧
    cursor.position = past.length

/-- From the given cursor the walk ends with this outcome in front of these tokens, having looked at
nothing behind the end mark; if it succeeds, then with this number of levels taken. -/
def Runs (walk : Walk α) (cursor : Cursor) (outcome : Except Halt α) (coming : List Token)
    (depth : Nat) : Prop :=
  ∃ last, walk cursor = some (outcome, last) ∧ Standing body more coming last ∧
    (∀ result, outcome = .ok result → last.depth = depth) ∧
    ∀ index ∈ last.visited, index ∈ cursor.visited ∨ index ≤ body.length

variable {body more}

theorem Standing.exists_cons {coming : List Token} {cursor : Cursor}
    (standing : Standing body more coming cursor) : ∃ token rest, coming = token :: rest := by
  obtain ⟨past, ahead, -, rfl, -⟩ := standing
  exact List.exists_cons_of_ne_nil (by simp)

theorem Standing.endMark_mem {coming : List Token} {cursor : Cursor}
    (standing : Standing body more coming cursor) : .endMark ∈ coming := by
  obtain ⟨past, ahead, -, rfl, -⟩ := standing
  simp

theorem Standing.position_le {coming : List Token} {cursor : Cursor}
    (standing : Standing body more coming cursor) : cursor.position ≤ body.length := by
  obtain ⟨past, ahead, rfl, -, here⟩ := standing
  rw [here, List.length_append]
  exact Nat.le_add_right _ _

theorem Standing.length_coming {coming : List Token} {cursor : Cursor}
    (standing : Standing body more coming cursor) :
    cursor.position + coming.length = (body ++ .endMark :: more).length := by
  obtain ⟨past, ahead, rfl, rfl, here⟩ := standing
  rw [here, ← List.length_append, List.append_assoc]

theorem Standing.drop_eq {coming : List Token} {cursor : Cursor}
    (standing : Standing body more coming cursor) :
    (body ++ .endMark :: more).drop cursor.position = coming := by
  obtain ⟨past, ahead, rfl, rfl, here⟩ := standing
  rw [here, List.append_assoc, List.drop_left]

theorem Standing.getElem? {token : Token} {rest : List Token} {cursor : Cursor}
    (standing : Standing body more (token :: rest) cursor) :
    (body ++ .endMark :: more)[cursor.position]? = some token := by
  obtain ⟨past, ahead, rfl, coming, here⟩ := standing
  rw [here, List.append_assoc, ← coming, List.getElem?_append_right (Nat.le_refl _), Nat.sub_self]
  rfl

theorem Standing.next {token : Token} {rest : List Token} {cursor : Cursor}
    (standing : Standing body more (token :: rest) cursor) (noMark : token ≠ .endMark) :
    Standing body more rest cursor.next := by
  obtain ⟨past, ahead, rfl, coming, here⟩ := standing
  cases ahead with
  | nil =>
    cases coming
    exact absurd rfl noMark
  | cons first ahead =>
    cases coming
    refine ⟨past ++ [token], ahead, by simp, rfl, ?_⟩
    rw [Cursor.next, here, List.length_append]
    rfl

/-! ### Walks in a row -/

variable {walk : Walk α} {next : α → Walk β} {cursor : Cursor} {coming : List Token} {depth : Nat}

theorem bind_ok {result : α} {last : Cursor} (first : walk cursor = some (.ok result, last)) :
    (walk >>= next) cursor = next result last := by
  show (walk cursor).bind _ = _
  rw [first]
  rfl

theorem bind_error {halt : Halt} {last : Cursor}
    (first : walk cursor = some (.error halt, last)) :
    (walk >>= next) cursor = some (.error halt, last) := by
  show (walk cursor).bind _ = _
  rw [first]
  rfl

theorem bind_none (first : walk cursor = none) : (walk >>= next) cursor = none := by
  show (walk cursor).bind _ = _
  rw [first]
  rfl

/-- A walk that succeeds comes to a cursor from which the next one goes on. -/
theorem Runs.exists_middle {result : α}
    (first : Runs body more walk cursor (.ok result) coming depth) :
    ∃ middle, Standing body more coming middle ∧ middle.depth = depth ∧
      ∀ {outcome : Except Halt β} {behind : List Token} {after : Nat},
        Runs body more (next result) middle outcome behind after →
          Runs body more (walk >>= next) cursor outcome behind after := by
  obtain ⟨middle, ended, standing, taken, looked⟩ := first
  refine ⟨middle, standing, taken result rfl, ?_⟩
  rintro outcome behind after ⟨last, endedLater, standingLater, takenLater, lookedLater⟩
  refine ⟨last, (bind_ok ended).trans endedLater, standingLater, takenLater,
    fun index isIn => ?_⟩
  rcases lookedLater index isIn with before | inside
  · exact looked index before
  · exact Or.inr inside

/-- A walk that succeeds is gone on with. -/
theorem Runs.bind {result : α} {outcome : Except Halt β} {behind : List Token} {after : Nat}
    (first : Runs body more walk cursor (.ok result) coming depth)
    (later : ∀ middle, Standing body more coming middle → middle.depth = depth →
      Runs body more (next result) middle outcome behind after) :
    Runs body more (walk >>= next) cursor outcome behind after := by
  obtain ⟨middle, standing, taken, goOn⟩ := first.exists_middle
  exact goOn (later middle standing taken)

/-- A walk that stops is not gone on with. -/
theorem Runs.fail {halt : Halt} (first : Runs body more walk cursor (.error halt) coming depth)
    (after : Nat) : Runs body more (walk >>= next) cursor (.error halt) coming after := by
  obtain ⟨last, ended, standing, -, looked⟩ := first
  exact ⟨last, bind_error ended, standing, nofun, looked⟩

/-- There is a token where a walk ends. -/
theorem Runs.exists_cons {outcome : Except Halt α}
    (runs : Runs body more walk cursor outcome coming depth) :
    ∃ token rest, coming = token :: rest := by
  obtain ⟨last, -, standing, -⟩ := runs
  exact standing.exists_cons

theorem runs_pure (result : α) (standing : Standing body more coming cursor)
    (taken : cursor.depth = depth) :
    Runs body more (pure result) cursor (.ok result) coming depth :=
  ⟨cursor, rfl, standing, fun _ _ => taken, fun _ isIn => Or.inl isIn⟩

theorem runs_throw (halt : Halt) (standing : Standing body more coming cursor) (after : Nat) :
    Runs body more (throw halt : Walk α) cursor (.error halt) coming after :=
  ⟨cursor, rfl, standing, nofun, fun _ isIn => Or.inl isIn⟩

/-! ### Single moves -/

theorem runs_current {token : Token} {rest : List Token}
    (standing : Standing body more (token :: rest) cursor) (taken : cursor.depth = depth) :
    Runs body more (current (body ++ .endMark :: more)) cursor (.ok token) (token :: rest)
      depth := by
  refine ⟨cursor.look, ?_, standing, fun _ _ => taken, fun index isIn => ?_⟩
  · have moved : current (body ++ .endMark :: more) cursor =
        require (body ++ .endMark :: more)[cursor.position]? .outOfBounds cursor.look := rfl
    rw [moved, standing.getElem?]
    rfl
  · rcases List.mem_cons.mp isIn with rfl | before
    · exact Or.inr standing.position_le
    · exact Or.inl before

theorem runs_advance {token : Token} {rest : List Token}
    (standing : Standing body more (token :: rest) cursor) (taken : cursor.depth = depth)
    (noMark : token ≠ .endMark) :
    Runs body more advance cursor (.ok ()) rest depth :=
  ⟨cursor.next, rfl, standing.next noMark, fun _ _ => taken, fun _ isIn => Or.inl isIn⟩

theorem runs_descend (room : depth < levelLimit)
    (standing : Standing body more coming cursor) (taken : cursor.depth = depth) :
    Runs body more descend cursor (.ok ()) coming (depth + 1) := by
  subst taken
  refine ⟨cursor.atDepth (cursor.depth + 1), ?_, standing, fun _ _ => rfl,
    fun _ isIn => Or.inl isIn⟩
  have moved : descend cursor =
      (if levelLimit < cursor.depth + 1 then throw (.fault .tooDeep) else pure () : Walk Unit)
        (cursor.atDepth (cursor.depth + 1)) := rfl
  rw [moved, if_neg (by omega)]
  rfl

theorem runs_descend_tooDeep (full : levelLimit ≤ cursor.depth)
    (standing : Standing body more coming cursor) (after : Nat) :
    Runs body more descend cursor (.error (.fault .tooDeep)) coming after := by
  refine ⟨cursor.atDepth (cursor.depth + 1), ?_, standing, nofun, fun _ isIn => Or.inl isIn⟩
  have moved : descend cursor =
      (if levelLimit < cursor.depth + 1 then throw (.fault .tooDeep) else pure () : Walk Unit)
        (cursor.atDepth (cursor.depth + 1)) := rfl
  rw [moved, if_pos (by omega)]
  rfl

/-- Levels that have been taken can be given back. -/
theorem runs_ascend (levels : Nat) (standing : Standing body more coming cursor)
    (taken : cursor.depth = depth + levels) :
    Runs body more (ascend levels) cursor (.ok ()) coming depth := by
  have kept : cursor.depth - levels = depth := by omega
  refine ⟨cursor.atDepth (cursor.depth - levels), ?_, standing, fun _ _ => kept,
    fun _ isIn => Or.inl isIn⟩
  have moved : ascend levels cursor =
      (if levels ≤ cursor.depth then set (cursor.atDepth (cursor.depth - levels))
        else throw .underflow : Walk Unit) cursor := rfl
  rw [moved, if_pos (by omega)]
  rfl

theorem runs_expect {expected : Token → Bool} {token : Token} {rest : List Token}
    (standing : Standing body more (token :: rest) cursor) (taken : cursor.depth = depth)
    (isExpected : expected token = true) (noMark : token ≠ .endMark) :
    Runs body more (expect (body ++ .endMark :: more) expected) cursor (.ok token) rest
      depth := by
  unfold expect
  refine (runs_current standing taken).bind fun cursor standing taken => ?_
  rw [if_pos isExpected]
  exact (runs_advance standing taken noMark).bind fun cursor standing taken =>
    runs_pure token standing taken

/-- A token that cannot stand at its place is reported. -/
theorem runs_expect_unexpected {expected : Token → Bool} {rest : List Token}
    (standing : Standing body more rest cursor)
    (noHead : ∀ token ∈ rest.head?, expected token = false) (after : Nat) :
    Runs body more (expect (body ++ .endMark :: more) expected) cursor
      (.error (.fault (unexpectedAt rest).fault)) (unexpectedAt rest).rest after := by
  obtain ⟨token, others, rfl⟩ := standing.exists_cons
  unfold expect
  refine (runs_current standing rfl).bind fun cursor standing _ => ?_
  rw [noHead token rfl]
  exact runs_throw _ standing after

end Runs

end Walk

end Worksheet

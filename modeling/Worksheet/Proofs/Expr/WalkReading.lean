/-
**Reading with a cursor ends as reading without one.**

* `extendedBy_of_le`: what a walk comes to does not depend on how deep its calls may be nested;
* `Mirrors`: a walk ends as a reader does if calls may be nested deep enough;
* `mirrors`: the walks end as the readers do, by induction on the levels that are left.
-/

import Worksheet.Proofs.Expr.Lookahead
import Worksheet.Proofs.Expr.Walk

namespace Worksheet

namespace Walk

open Grammar (Stops)
open Worksheet.Expr (readLeaf readExpr readChain readArguments LeafStep ArgumentsRead unexpectedAt
  readLeaf_iff readExpr_iff readChain_iff)

/-! ### Deeper calls -/

section Extended

variable {α β : Type} {walk other : Walk α}

/-- Where the walk has an outcome, the other one has the same. -/
def ExtendedBy (walk other : Walk α) : Prop :=
  ∀ ⦃cursor ending⦄, walk cursor = some ending → other cursor = some ending

theorem ExtendedBy.refl (walk : Walk α) : ExtendedBy walk walk :=
  fun _ _ ends => ends

theorem ExtendedBy.trans {third : Walk α} (first : ExtendedBy walk other)
    (second : ExtendedBy other third) : ExtendedBy walk third :=
  fun _ _ ends => second (first ends)

theorem noOutcome_extendedBy (walk : Walk α) : ExtendedBy noOutcome walk :=
  fun _ _ ends => nomatch ends

theorem ExtendedBy.bind {next nextOther : α → Walk β} (first : ExtendedBy walk other)
    (later : ∀ result, ExtendedBy (next result) (nextOther result)) :
    ExtendedBy (walk >>= next) (other >>= nextOther) := by
  intro cursor ending ends
  match ended : walk cursor with
  | none =>
    rw [bind_none ended] at ends
    cases ends
  | some (.ok result, middle) =>
    rw [bind_ok ended] at ends
    rw [bind_ok (first ended)]
    exact later result ends
  | some (.error halt, last) =>
    rw [bind_error ended] at ends
    rwa [bind_error (first ended)]

theorem ExtendedBy.then {next nextOther : α → Walk β}
    (later : ∀ result, ExtendedBy (next result) (nextOther result)) :
    ExtendedBy (walk >>= next) (walk >>= nextOther) :=
  (ExtendedBy.refl walk).bind later

theorem ExtendedBy.ite {condition : Prop} [Decidable condition] {walk' other' : Walk α}
    (yes : ExtendedBy walk other) (no : ExtendedBy walk' other') :
    ExtendedBy (if condition then walk else walk') (if condition then other else other') := by
  split
  · exact yes
  · exact no

/-- Each of the walks that has an outcome has the same if calls may be nested one deeper. -/
theorem extendedBy_succ (tokens : List Token) (calls : Nat) :
    ExtendedBy (leaf tokens calls) (leaf tokens (calls + 1)) ∧
      (∀ token, ExtendedBy (content tokens calls token) (content tokens (calls + 1) token)) ∧
      (∀ found, ExtendedBy (arguments tokens calls found) (arguments tokens (calls + 1) found)) ∧
      (∀ precedence,
        ExtendedBy (expr tokens calls precedence) (expr tokens (calls + 1) precedence)) ∧
      ∀ precedence left absorbed, ExtendedBy (chain tokens calls precedence left absorbed)
        (chain tokens (calls + 1) precedence left absorbed) := by
  induction calls with
  | zero =>
    exact ⟨noOutcome_extendedBy _, fun _ => noOutcome_extendedBy _, fun _ => noOutcome_extendedBy _,
      fun _ => noOutcome_extendedBy _, fun _ _ _ => noOutcome_extendedBy _⟩
  | succ calls ih =>
    obtain ⟨leaves, contents, lists, exprs, chains⟩ := ih
    refine ⟨?_, fun token => ?_, fun found => ?_, fun precedence => ?_,
      fun precedence left absorbed => ?_⟩
    · rw [leaf, leaf]
      exact .then fun _ => .then fun token => (contents token).bind fun tree => .refl _
    · cases token with
      | openBracket =>
        rw [content, content]
        exact .then fun _ => (exprs 0).bind fun _ => .refl _
      | operator op =>
        cases op with
        | sub =>
          rw [content, content]
          exact .then fun _ => leaves.bind fun _ => .refl _
        | add =>
          rw [content, content]
          exact .then fun _ => leaves
        | mul | div => exact .refl _
      | name word =>
        rw [content, content]
        exact .then fun _ => .then fun token => .ite
          (.then fun _ => .then fun token => .ite (.refl _) ((lists []).bind fun _ => .refl _))
          (.refl _)
      | number | closeBracket | comma | endMark => exact .refl _
    · rw [arguments, arguments]
      exact (exprs 0).bind fun _ => .then fun token => .ite (.refl _) (lists _)
    · rw [expr, expr]
      exact .then fun _ => leaves.bind fun first => (chains _ _ _).bind fun _ => .refl _
    · rw [chain, chain]
      refine .then fun token => ?_
      cases token with
      | operator op =>
        exact .ite (.then fun _ => .then fun _ => (exprs _).bind fun right => chains _ _ _)
          (.refl _)
      | number | name | openBracket | closeBracket | comma | endMark => exact .refl _

/-- **An outcome does not depend on how deep calls may be nested.** -/
theorem extendedBy_of_le (tokens : List Token) {calls deeper : Nat} (le : calls ≤ deeper) :
    ExtendedBy (leaf tokens calls) (leaf tokens deeper) ∧
      (∀ found, ExtendedBy (arguments tokens calls found) (arguments tokens deeper found)) ∧
      (∀ precedence, ExtendedBy (expr tokens calls precedence) (expr tokens deeper precedence)) ∧
      ∀ precedence left absorbed, ExtendedBy (chain tokens calls precedence left absorbed)
        (chain tokens deeper precedence left absorbed) := by
  induction le with
  | refl => exact ⟨.refl _, fun _ => .refl _, fun _ => .refl _, fun _ _ _ => .refl _⟩
  | @step deeper _ ih =>
    obtain ⟨leaves, lists, exprs, chains⟩ := ih
    obtain ⟨leaves', -, lists', exprs', chains'⟩ := extendedBy_succ tokens deeper
    exact ⟨leaves.trans leaves', fun found => (lists found).trans (lists' found),
      fun precedence => (exprs precedence).trans (exprs' precedence),
      fun precedence left absorbed => (chains precedence left absorbed).trans
        (chains' precedence left absorbed)⟩

end Extended

section Runs

variable {α β : Type} {walk : Walk α} {next : α → Walk β} {cursor : Cursor} {coming : List Token}
  {depth : Nat}

/-! ### The walks end as the readers do -/

variable (body more : List Token)

/-- The walk ends as the reading does, with as many levels taken as before if it succeeds. -/
def Follows (walk : Walk α) (cursor : Cursor) (depth : Nat) : Reading α → Prop
  | .ok (result, rest) => Runs body more walk cursor (.ok result) rest depth
  | .error failure =>
    Runs body more walk cursor (.error (.fault failure.fault)) failure.rest depth

/-- How deep calls must be allowed to be nested if so many levels are left: with every level come
at most as many arguments as there are tokens. -/
def enough (tokens : List Token) (levels : Nat) : Nat :=
  levels * (tokens.length + 3) + 1

theorem enough_succ (tokens : List Token) (levels : Nat) :
    enough tokens (levels + 1) = enough tokens levels + tokens.length + 3 := by
  rw [enough, enough, Nat.succ_mul]
  omega

theorem exists_of_enough {tokens : List Token} {levels calls : Nat}
    (deep : enough tokens levels ≤ calls) : ∃ fewer, calls = fewer + 1 :=
  Nat.exists_eq_add_one.mpr (Nat.lt_of_lt_of_le (Nat.succ_pos _) deep)

/-- Wherever so many levels are left, the walk ends as the reader does. -/
def Mirrors (levels : Nat) (walk : Nat → Walk α) (read : List Token → Reading α) : Prop :=
  ∀ calls coming cursor depth, enough (body ++ .endMark :: more) levels ≤ calls →
    Standing body more coming cursor → cursor.depth = depth → levelLimit - depth = levels →
      Follows body more (walk calls) cursor depth (read coming)

variable {body more} {levels calls : Nat} {walks : Nat → Walk α}

/-- What follows a walk that succeeds ends as the reading does. -/
theorem Runs.follows {result : α} {reading : Reading β} {after : Nat}
    (first : Runs body more walk cursor (.ok result) coming depth)
    (later : ∀ middle, Standing body more coming middle → middle.depth = depth →
      Follows body more (next result) middle after reading) :
    Follows body more (walk >>= next) cursor after reading := by
  obtain ⟨middle, standing, taken, goOn⟩ := first.exists_middle
  have follows := later middle standing taken
  cases reading with
  | ok read => exact goOn follows
  | error failure => exact goOn follows

theorem Mirrors.ok {read : List Token → Reading α} {result : α} {rest : List Token}
    (mirrors : Mirrors body more levels walks read) (reads : read coming = .ok (result, rest))
    (deep : enough (body ++ .endMark :: more) levels ≤ calls)
    (standing : Standing body more coming cursor) (taken : cursor.depth = depth)
    (left : levelLimit - depth = levels) :
    Runs body more (walks calls) cursor (.ok result) rest depth := by
  have follows := mirrors calls coming cursor depth deep standing taken left
  rwa [reads] at follows

theorem Mirrors.error {read : List Token → Reading α} {failure : ParseFailure}
    (mirrors : Mirrors body more levels walks read) (reads : read coming = .error failure)
    (deep : enough (body ++ .endMark :: more) levels ≤ calls)
    (standing : Standing body more coming cursor) (taken : cursor.depth = depth)
    (left : levelLimit - depth = levels) :
    Runs body more (walks calls) cursor (.error (.fault failure.fault)) failure.rest depth := by
  have follows := mirrors calls coming cursor depth deep standing taken left
  rwa [reads] at follows

/-- The loop over arguments ends, since its readings are finitely many. -/
theorem follows_arguments
    (exprs : Mirrors body more levels (expr (body ++ .endMark :: more) · 0) (readExpr levels 0))
    {found : List Expr} {reading : Reading (List Expr)}
    (read : ArgumentsRead levels found coming reading)
    (deep : enough (body ++ .endMark :: more) levels + coming.length ≤ calls)
    (standing : Standing body more coming cursor) (taken : cursor.depth = depth)
    (left : levelLimit - depth = levels) :
    Follows body more (arguments (body ++ .endMark :: more) (calls + 1) found) cursor depth
      reading := by
  induction read generalizing cursor calls with
  | last first =>
    rw [arguments]
    refine Runs.bind (exprs.ok first (by omega) standing taken left) fun cursor standing taken => ?_
    exact (runs_expect standing taken rfl nofun).bind fun cursor standing taken =>
      runs_pure _ standing taken
  | more first others ih =>
    have shorter := Expr.length_of_readExpr first
    rw [List.length_cons] at shorter
    obtain ⟨calls, rfl⟩ : ∃ fewer, calls = fewer + 1 := ⟨calls - 1, by omega⟩
    rw [arguments]
    refine (exprs.ok first (by omega) standing taken left).follows fun cursor standing taken => ?_
    exact (runs_expect standing taken rfl nofun).follows fun cursor standing taken =>
      ih (by omega) standing taken
  | notClosed first noEnd =>
    rw [arguments]
    refine (exprs.ok first (by omega) standing taken left).follows fun cursor standing taken => ?_
    exact (runs_expect_unexpected standing (fun token isHead => by simp [noEnd token isHead])
      depth).fail depth
  | failed first =>
    rw [arguments]
    exact (exprs.error first (by omega) standing taken left).fail depth

/-- A call that has arguments, from its name on. -/
theorem follows_call {function : Text} {first : Token} {behind : List Token}
    {reading : Reading Expr} (nonempty : first ≠ .closeBracket)
    (standing : Standing body more (.name function :: .openBracket :: first :: behind) cursor)
    (taken : cursor.depth = depth)
    (inside : ∀ middle, Standing body more (first :: behind) middle → middle.depth = depth →
      Follows body more (do
        return .call function (← arguments (body ++ .endMark :: more) calls [])) middle depth
          reading) :
    Follows body more (content (body ++ .endMark :: more) (calls + 1) (.name function)) cursor depth
      reading := by
  rw [content]
  refine (runs_advance standing taken nofun).follows fun cursor standing taken => ?_
  refine (runs_current standing taken).follows fun cursor standing taken => ?_
  rw [if_pos rfl]
  refine (runs_advance standing taken nofun).follows fun cursor standing taken => ?_
  refine (runs_current standing taken).follows fun cursor standing taken => ?_
  rw [if_neg nonempty]
  exact inside cursor standing taken

theorem content_noLeaf {tokens : List Token} {token : Token}
    (noStart : token.startsLeaf = false) :
    content tokens (calls + 1) token = throw (.fault (.unexpected token)) := by
  rw [content]
  all_goals
    intros
    subst_vars
    cases noStart

/-- Whatever a leaf starts with, reading it goes as the reader does. -/
theorem follows_content
    (leaves : Mirrors body more levels (leaf (body ++ .endMark :: more)) (readLeaf levels))
    (exprs : Mirrors body more levels (expr (body ++ .endMark :: more) · 0) (readExpr levels 0))
    {token : Token} {rest : List Token} {reading : Reading Expr}
    (step : LeafStep (levels + 1) (token :: rest) reading)
    (deep : enough (body ++ .endMark :: more) levels + (body ++ .endMark :: more).length ≤ calls)
    (standing : Standing body more (token :: rest) cursor) (taken : cursor.depth = depth)
    (left : levelLimit - depth = levels) :
    Follows body more (content (body ++ .endMark :: more) (calls + 2) token) cursor depth
      reading := by
  have shorter {coming : List Token} {cursor : Cursor}
      (standing : Standing body more coming cursor) :
      enough (body ++ .endMark :: more) levels + coming.length ≤ calls := by
    have whole := standing.length_coming
    omega
  have deepEnough : enough (body ++ .endMark :: more) levels ≤ calls + 1 := by omega
  have onward (noMark : token ≠ .endMark) := runs_advance standing taken noMark
  cases step with
  | number good =>
    rw [content, good]
    refine (runs_pure _ standing taken).bind fun cursor standing taken => ?_
    exact (runs_advance standing taken nofun).bind fun cursor standing taken =>
      runs_pure _ standing taken
  | malformed bad =>
    rw [content, bad]
    exact (runs_throw _ standing depth).fail depth
  | minus operand =>
    rw [content]
    refine (onward nofun).bind fun cursor standing taken => ?_
    exact (leaves.ok operand deepEnough standing taken left).bind fun cursor standing taken =>
      runs_pure _ standing taken
  | plus operand =>
    rw [content]
    exact (onward nofun).bind fun cursor standing taken =>
      leaves.ok operand deepEnough standing taken left
  | signFailed sign operand =>
    rcases sign with rfl | rfl
    · rw [content]
      exact (onward nofun).bind fun cursor standing taken =>
        leaves.error operand deepEnough standing taken left
    · rw [content]
      exact (onward nofun).bind fun cursor standing taken =>
        (leaves.error operand deepEnough standing taken left).fail depth
  | brackets inner =>
    rw [content]
    refine (onward nofun).bind fun cursor standing taken => ?_
    refine (exprs.ok inner deepEnough standing taken left).bind fun cursor standing taken => ?_
    exact (runs_expect standing taken rfl nofun).bind fun cursor standing taken =>
      runs_pure _ standing taken
  | notClosed inner noEnd =>
    rw [content]
    refine (onward nofun).bind fun cursor standing taken => ?_
    refine (exprs.ok inner deepEnough standing taken left).bind fun cursor standing taken => ?_
    exact (runs_expect_unexpected standing (fun token isHead => by simp [noEnd token isHead])
      depth).fail depth
  | bracketsFailed inner =>
    rw [content]
    exact (onward nofun).bind fun cursor standing taken =>
      (exprs.error inner deepEnough standing taken left).fail depth
  | name noCall =>
    rw [content]
    refine (onward nofun).bind fun cursor standing taken => ?_
    obtain ⟨token, behind, rfl⟩ := standing.exists_cons
    refine (runs_current standing taken).bind fun cursor standing taken => ?_
    rw [if_neg (noCall token rfl)]
    exact runs_pure _ standing taken
  | emptyCall =>
    rw [content]
    refine (onward nofun).bind fun cursor standing taken => ?_
    refine (runs_current standing taken).bind fun cursor standing taken => ?_
    rw [if_pos rfl]
    refine (runs_advance standing taken nofun).bind fun cursor standing taken => ?_
    refine (runs_current standing taken).bind fun cursor standing taken => ?_
    rw [if_pos rfl]
    exact (runs_advance standing taken nofun).bind fun cursor standing taken =>
      runs_pure _ standing taken
  | call read =>
    obtain ⟨first, behind, rfl, nonempty⟩ := read.exists_first
    exact follows_call nonempty standing taken fun cursor standing taken =>
      Runs.bind (follows_arguments exprs read (shorter standing) standing taken left)
        fun cursor standing taken => runs_pure _ standing taken
  | callFailed isFirst nonempty read =>
    obtain ⟨behind, rfl⟩ := List.head?_eq_some_iff.mp isFirst
    exact follows_call nonempty standing taken fun cursor standing taken =>
      Runs.fail (follows_arguments exprs read (shorter standing) standing taken left) depth
  | cutOff => exact absurd standing.endMark_mem (by simp)
  | noLeaf noStart =>
    rw [content_noLeaf (noStart token rfl)]
    exact runs_throw _ standing depth

theorem mirrors_leaf_zero :
    Mirrors body more 0 (leaf (body ++ .endMark :: more)) (readLeaf 0) := by
  intro calls coming cursor depth deep standing taken left
  obtain ⟨calls, rfl⟩ := exists_of_enough deep
  rw [readLeaf, leaf]
  exact (runs_descend_tooDeep (by omega) standing depth).fail depth

theorem mirrors_leaf
    (leaves : Mirrors body more levels (leaf (body ++ .endMark :: more)) (readLeaf levels))
    (exprs : Mirrors body more levels (expr (body ++ .endMark :: more) · 0) (readExpr levels 0)) :
    Mirrors body more (levels + 1) (leaf (body ++ .endMark :: more)) (readLeaf (levels + 1)) := by
  intro calls coming cursor depth deep standing taken left
  rw [enough_succ] at deep
  obtain ⟨calls, rfl⟩ : ∃ fewer, calls = fewer + 3 := ⟨calls - 3, by omega⟩
  have deepEnough : enough (body ++ .endMark :: more) levels + (body ++ .endMark :: more).length ≤
    calls := by omega
  obtain ⟨token, rest, rfl⟩ := standing.exists_cons
  have step := readLeaf_iff.mp (Eq.refl (readLeaf (levels + 1) (token :: rest)))
  rw [leaf]
  refine (runs_descend (by omega) standing taken).follows fun cursor standing taken => ?_
  refine (runs_current standing taken).follows fun cursor standing taken => ?_
  have inside := follows_content leaves exprs step deepEnough standing taken (by omega)
  cases reads : readLeaf (levels + 1) (token :: rest) with
  | error failure =>
    rw [reads] at inside
    exact Runs.fail inside depth
  | ok result =>
    rw [reads] at inside
    refine Runs.bind inside fun cursor standing taken => ?_
    exact (runs_ascend 1 standing taken).bind fun cursor standing taken =>
      runs_pure _ standing taken

/-- The loop over operators ends as the reading does, with a level more taken for every operator
that it has counted. -/
def Loops (body more : List Token) (walk : Walk (Expr × Nat)) (cursor : Cursor)
    (depth absorbed : Nat) : Reading Expr → Prop
  | .ok (tree, rest) => ∃ count,
    Runs body more walk cursor (.ok (tree, absorbed + count)) rest (depth + count)
  | .error failure =>
    Runs body more walk cursor (.error (.fault failure.fault)) failure.rest depth

/-- Wherever so many levels are left, the loop ends as the reader does. -/
def MirrorsChain (body more : List Token) (levels precedence : Nat) : Prop :=
  ∀ calls left absorbed coming cursor depth, enough (body ++ .endMark :: more) levels ≤ calls →
    Standing body more coming cursor → cursor.depth = depth → levelLimit - depth = levels →
      Loops body more (chain (body ++ .endMark :: more) calls precedence left absorbed) cursor depth
        absorbed (readChain levels precedence left coming)

theorem Runs.loops {next : α → Walk (Expr × Nat)} {result : α} {reading : Reading Expr}
    {after absorbed : Nat} (first : Runs body more walk cursor (.ok result) coming depth)
    (later : ∀ middle, Standing body more coming middle → middle.depth = depth →
      Loops body more (next result) middle after absorbed reading) :
    Loops body more (walk >>= next) cursor after absorbed reading := by
  obtain ⟨middle, standing, taken, goOn⟩ := first.exists_middle
  have loops := later middle standing taken
  cases reading with
  | ok read =>
    obtain ⟨count, loops⟩ := loops
    exact ⟨count, goOn loops⟩
  | error failure => exact goOn loops

/-- An operator that is counted keeps a level. -/
theorem Loops.count {walk : Walk (Expr × Nat)} {absorbed : Nat} {reading : Reading Expr}
    (loops : Loops body more walk cursor (depth + 1) (absorbed + 1) reading) :
    Loops body more walk cursor depth absorbed reading := by
  cases reading with
  | ok read =>
    obtain ⟨count, loops⟩ := loops
    rw [Nat.add_right_comm, Nat.add_assoc, Nat.add_right_comm depth, Nat.add_assoc depth] at loops
    exact ⟨count + 1, loops⟩
  | error failure =>
    obtain ⟨last, ended, standing, -, looked⟩ := loops
    exact ⟨last, ended, standing, nofun, looked⟩

theorem runs_chain_stops {precedence absorbed : Nat} {left : Expr}
    (stops : Stops precedence coming) (standing : Standing body more coming cursor)
    (taken : cursor.depth = depth) :
    Runs body more (chain (body ++ .endMark :: more) (calls + 1) precedence left absorbed) cursor
      (.ok (left, absorbed)) coming depth := by
  obtain ⟨token, rest, rfl⟩ := standing.exists_cons
  rw [chain]
  refine (runs_current standing taken).bind fun cursor standing taken => ?_
  cases token with
  | operator op =>
    have loose := stops op rest rfl
    simp only [if_neg (Nat.not_le.mpr loose)]
    exact runs_pure _ standing taken
  | number | name | openBracket | closeBracket | comma | endMark =>
    exact runs_pure _ standing taken

theorem mirrorsChain_zero (precedence : Nat) : MirrorsChain body more 0 precedence := by
  intro calls left absorbed coming cursor depth deep standing taken full
  obtain ⟨calls, rfl⟩ := exists_of_enough deep
  have step := readChain_iff.mp (Eq.refl (readChain 0 precedence left coming))
  generalize readChain 0 precedence left coming = reading at step
  cases step with
  | stops stops => exact ⟨0, runs_chain_stops stops standing taken⟩
  | tooDeep binds =>
    rw [chain]
    refine (runs_current standing taken).bind fun cursor standing taken => ?_
    simp only [if_pos binds]
    exact (runs_descend_tooDeep (by omega) standing depth).fail depth

theorem mirrorsChain {precedence : Nat}
    (exprs : ∀ precedence,
      Mirrors body more levels (expr (body ++ .endMark :: more) · precedence)
        (readExpr levels precedence))
    (chains : MirrorsChain body more levels precedence) :
    MirrorsChain body more (levels + 1) precedence := by
  intro calls left absorbed coming cursor depth deep standing taken room
  obtain ⟨calls, rfl⟩ := exists_of_enough deep
  rw [enough_succ] at deep
  have deepEnough : enough (body ++ .endMark :: more) levels ≤ calls := by omega
  have step := readChain_iff.mp (Eq.refl (readChain (levels + 1) precedence left coming))
  generalize readChain (levels + 1) precedence left coming = reading at step
  cases step with
  | stops stops => exact ⟨0, runs_chain_stops stops standing taken⟩
  | operator binds operand read =>
    rw [chain]
    refine (runs_current standing taken).loops fun cursor standing taken => ?_
    simp only [if_pos binds]
    refine (runs_descend (by omega) standing taken).loops fun cursor standing taken => ?_
    refine (runs_advance standing taken nofun).loops fun cursor standing taken => ?_
    refine ((exprs _).ok operand deepEnough standing taken (by omega)).loops
      fun cursor standing taken => ?_
    rw [← read]
    exact (chains calls _ _ _ cursor _ deepEnough standing taken (by omega)).count
  | failed binds operand =>
    rw [chain]
    refine (runs_current standing taken).bind fun cursor standing taken => ?_
    simp only [if_pos binds]
    refine (runs_descend (by omega) standing taken).bind fun cursor standing taken => ?_
    refine (runs_advance standing taken nofun).bind fun cursor standing taken => ?_
    exact ((exprs _).error operand deepEnough standing taken (by omega)).fail depth

theorem mirrors_expr_zero (precedence : Nat) :
    Mirrors body more 0 (expr (body ++ .endMark :: more) · precedence)
      (readExpr 0 precedence) := by
  intro calls coming cursor depth deep standing taken full
  obtain ⟨calls, rfl⟩ := exists_of_enough deep
  beta_reduce
  rw [readExpr, expr]
  exact (runs_descend_tooDeep (by omega) standing depth).fail depth

theorem mirrors_expr {precedence : Nat}
    (leaves : Mirrors body more levels (leaf (body ++ .endMark :: more)) (readLeaf levels))
    (chains : MirrorsChain body more levels precedence) :
    Mirrors body more (levels + 1) (expr (body ++ .endMark :: more) · precedence)
      (readExpr (levels + 1) precedence) := by
  intro calls coming cursor depth deep standing taken room
  obtain ⟨calls, rfl⟩ := exists_of_enough deep
  rw [enough_succ] at deep
  have deepEnough : enough (body ++ .endMark :: more) levels ≤ calls := by omega
  have step := readExpr_iff.mp (Eq.refl (readExpr (levels + 1) precedence coming))
  generalize readExpr (levels + 1) precedence coming = reading at step
  beta_reduce
  rw [expr]
  refine (runs_descend (by omega) standing taken).follows fun cursor standing taken => ?_
  cases step with
  | failed leaf => exact (leaves.error leaf deepEnough standing taken (by omega)).fail depth
  | @chain _ _ rest first _ leaf read =>
    refine (leaves.ok leaf deepEnough standing taken (by omega)).follows
      fun cursor standing taken => ?_
    have loop := chains calls first 0 rest cursor _ deepEnough standing taken (by omega)
    rw [read] at loop
    cases reading with
    | error failure => exact Runs.fail loop depth
    | ok result =>
      obtain ⟨count, loop⟩ := loop
      refine Runs.bind loop fun cursor standing taken => ?_
      exact (runs_ascend _ standing (by omega)).bind fun cursor standing taken =>
        runs_pure _ standing taken

/-- **The walks end as the readers do**, however many levels are left. -/
theorem mirrors (body more : List Token) (levels : Nat) :
    Mirrors body more levels (leaf (body ++ .endMark :: more)) (readLeaf levels) ∧
      ∀ precedence,
        Mirrors body more levels (expr (body ++ .endMark :: more) · precedence)
            (readExpr levels precedence) ∧
          MirrorsChain body more levels precedence := by
  induction levels with
  | zero =>
    exact ⟨mirrors_leaf_zero, fun precedence =>
      ⟨mirrors_expr_zero precedence, mirrorsChain_zero precedence⟩⟩
  | succ levels ih =>
    obtain ⟨leaves, sums⟩ := ih
    exact ⟨mirrors_leaf leaves (sums 0).1, fun precedence =>
      ⟨mirrors_expr leaves (sums precedence).2,
        mirrorsChain (fun other => (sums other).1) (sums precedence).2⟩⟩

end Runs

end Walk

end Worksheet

/-
**A printed expression reads back.**

A tree can be written as it is usually written, with brackets only where they are needed: around an
operand on the left that binds looser than the operator, around one on the right that does not bind
tighter, and around an operator behind a sign. The text is cut into tokens that spell the tree, and
how many levels reading it takes can be seen from the tree. So it is read back as the same tree, or
is too deep.

* `Expr.written` is the text of a tree, and `Expr.levels` are the levels that reading it takes;
* `Expr.IsPrintable` is what is asked of the nodes: literals without a sign, and names that are
  names;
* `Spells` is a sum whose tokens a text is cut into, and `spells_written` that there is one for the
  text of a tree;
* `ofText_written`: the text of a tree is read back as the tree if the levels suffice, and only
  then.
-/

import Worksheet.Proofs.Expr.Exactness
import Worksheet.Proofs.Expr.MaximalMunch
import Worksheet.Proofs.Expr.Sound
import Worksheet.Proofs.Number.ReadBack

namespace Worksheet

namespace Expr

/-! ### The text of a tree -/

/-- How tight the operator at the root binds, above all operators for a root that is none. -/
def strength : Expr → Nat
  | binary op _ _ => op.precedence
  | number _ | name _ | negate _ | call _ _ => 3

/-- Something of an operand that has to bind at least as tight as `needed`: changed by brackets if
it binds looser. -/
def enclosed {α : Type} (needed : Nat) (tree : Expr) (brackets : α → α) (plain : α) : α :=
  if tree.strength < needed then brackets plain else plain

/-- A text in brackets. -/
def inBrackets (text : Text) : Text :=
  '(' :: (text ++ [')'])

section Written

variable (gap : Text)

mutual

/-- The text of a tree, with a gap on both sides of an operator and behind a comma. -/
def written : Expr → Text
  | number value => shortestText value
  | name word => word
  | negate operand => '-' :: enclosed 3 operand inBrackets operand.written
  | binary op left right =>
    enclosed op.precedence left inBrackets left.written ++
      (gap ++ op.symbol :: (gap ++ enclosed (op.precedence + 1) right inBrackets right.written))
  | call function arguments => function ++ '(' :: writtenAll arguments

/-- The texts of arguments, up to the closing bracket. -/
def writtenAll : List Expr → Text
  | [] => [')']
  | [argument] => argument.written ++ [')']
  | argument :: next :: others => argument.written ++ ',' :: (gap ++ writtenAll (next :: others))

end

end Written

/-! ### The levels that reading it takes -/

/-- The number of operators that the loop absorbs which reads the text of a tree; brackets hide
them from it. -/
def operators : Expr → Nat
  | binary op left _ => enclosed op.precedence left (fun _ => 0) left.operators + 1
  | number _ | name _ | negate _ | call _ _ => 0

mutual

/-- The levels that reading the text of a tree takes; brackets take two of their own. -/
def levels : Expr → Nat
  | number _ | name _ => 2
  | negate operand => 1 + enclosed 3 operand (2 + ·) operand.levels
  | binary op left right =>
    max (enclosed op.precedence left (2 + ·) left.levels)
      (1 + (enclosed op.precedence left (fun _ => 0) left.operators + 1) +
        enclosed (op.precedence + 1) right (2 + ·) right.levels)
  | call _ arguments => 2 + levelsOf arguments

/-- The levels that the largest of some arguments takes. -/
def levelsOf : List Expr → Nat
  | [] => 0
  | argument :: others => max argument.levels (levelsOf others)

end

/-- What is asked of a node: a literal is finite and not negative, and names and callees are names.
The zero that has a sign is a negative literal, as its text starts with the sign. -/
def IsPrintable : Expr → Prop
  | number value => value.isFinite = true ∧ hasSignBit value = false
  | name word => Text.isName word = true
  | call function _ => Text.isName function = true
  | negate _ | binary _ _ _ => True

end Expr

namespace Token

/-! ### Texts behind each other -/

/-- No numeral and no name goes on with what the text starts with. -/
def EndsWord (text : Text) : Prop :=
  ∀ c ∈ text.head?, isNumeralPart c = false ∧ Text.isWordPart c = false

theorem endsWord_cons {c : Char} (isSymbol : c ∈ symbols) (rest : Text) : EndsWord (c :: rest) := by
  rintro d ⟨⟩
  obtain ⟨noWordPart, noNumeralPart, -⟩ := class_of_mem_symbols c isSymbol
  exact ⟨noNumeralPart, noWordPart⟩

theorem EndsWord.blanks {gap rest : Text} (isBlank : ∀ c ∈ gap, Text.isBlank c = true)
    (ends : EndsWord rest) : EndsWord (gap ++ rest) := by
  cases gap with
  | nil => exact ends
  | cons c others =>
    rintro d ⟨⟩
    obtain ⟨noWordPart, noNumeralPart, -⟩ := class_of_isBlank (isBlank c List.mem_cons_self)
    exact ⟨noNumeralPart, noWordPart⟩

/-- Two texts are cut one after the other, if no word goes on from the first to the second. -/
theorem Cut.append {front back : Text} {tokens others : List Token} (cut : Cut front tokens)
    (cutBack : Cut back others) (ends : EndsWord back) :
    Cut (front ++ back) (tokens ++ others) := by
  have head {rest : Text} {P : Char → Prop} (border : ∀ c ∈ rest.head?, P c)
      (behind : ∀ c ∈ back.head?, P c) : ∀ c ∈ (rest ++ back).head?, P c := by
    cases rest with
    | nil => exact behind
    | cons => exact border
  induction cut with
  | nil => exact cutBack
  | blank isBlank _ ih => exact .blank isBlank ih
  | symbol isSymbol _ ih => exact .symbol isSymbol ih
  | number nonempty parts border _ ih =>
    rw [List.append_assoc]
    exact .number nonempty parts (head border fun c isHead => (ends c isHead).1) ih
  | name isName border _ ih =>
    rw [List.append_assoc]
    refine .name isName (head border fun c isHead => ⟨(ends c isHead).2, ?_⟩) ih
    rintro rfl
    cases (ends '.' isHead).1

/-- White space is cut away. -/
theorem Cut.blanks {gap rest : Text} {tokens : List Token}
    (isBlank : ∀ c ∈ gap, Text.isBlank c = true) (cut : Cut rest tokens) :
    Cut (gap ++ rest) tokens := by
  induction gap with
  | nil => exact cut
  | cons c others ih =>
    rw [List.forall_mem_cons] at isBlank
    exact .blank isBlank.1 (ih isBlank.2)

/-- A text in brackets. -/
theorem Cut.brackets {text : Text} {tokens : List Token} (cut : Cut text tokens) :
    Cut (Expr.inBrackets text) (.openBracket :: (tokens ++ [Token.closeBracket])) :=
  .symbol rfl (cut.append (.symbol rfl .nil) (endsWord_cons (by decide) []))

theorem ofSymbol?_symbol (op : Operator) : ofSymbol? op.symbol = some (.operator op) := by
  cases op <;> rfl

/-- Two texts with an operator between them, and gaps around it. -/
theorem Cut.operator {left right gap : Text} {tokens others : List Token}
    (isBlank : ∀ c ∈ gap, Text.isBlank c = true) (op : Operator) (cutLeft : Cut left tokens)
    (cutRight : Cut right others) :
    Cut (left ++ (gap ++ op.symbol :: (gap ++ right))) (tokens ++ .operator op :: others) :=
  cutLeft.append (.blanks isBlank (.symbol (ofSymbol?_symbol op) (.blanks isBlank cutRight)))
    ((endsWord_cons (mem_symbols (ofSymbol?_symbol op)) _).blanks isBlank)

end Token

namespace Grammar

open Token (Cut)

/-! ### What spells a tree -/

/-- The text is cut into the tokens of the sum, which is the tree and binds and is read as can be
seen from the tree. -/
structure Spells (text : Text) (tree : Expr) (sum : Sum) : Prop where
  cut : Cut text sum.tokens
  tree_eq : sum.tree = tree
  strength_eq : sum.strength = tree.strength
  operators_eq : sum.operators = tree.operators
  levels_eq : sum.levels = tree.levels

/-- An operand in brackets, if it needs them. -/
theorem Spells.exists_enclosed {text : Text} {tree : Expr} {sum : Sum}
    (spells : Spells text tree sum) {needed : Nat} (small : needed ≤ 3) :
    ∃ operand : Sum, Cut (tree.enclosed needed Expr.inBrackets text) operand.tokens ∧
      operand.tree = tree ∧ needed ≤ operand.strength ∧
      operand.operators = tree.enclosed needed (fun _ => 0) tree.operators ∧
      operand.levels = tree.enclosed needed (2 + ·) tree.levels := by
  unfold Expr.enclosed
  by_cases loose : tree.strength < needed
  · simp only [if_pos loose]
    refine ⟨.product (.leaf (.brackets sum)), spells.cut.brackets, spells.tree_eq, small, rfl, ?_⟩
    show 1 + (1 + sum.levels) = 2 + tree.levels
    rw [spells.levels_eq]
    omega
  · simp only [if_neg loose]
    exact ⟨sum, spells.cut, spells.tree_eq, by rw [spells.strength_eq]; omega,
      spells.operators_eq, spells.levels_eq⟩

/-- A leaf by itself spells a tree that is no operation. -/
theorem Leaf.spells (leaf : Leaf) {text : Text} {tree : Expr} (cut : Cut text leaf.tokens)
    (tree_eq : leaf.tree = tree) (strong : tree.strength = 3) (noLoop : tree.operators = 0)
    (levels_eq : 1 + leaf.levels = tree.levels) :
    ∃ sum, Spells text tree sum :=
  ⟨.product (.leaf leaf), cut, tree_eq, strong.symm, noLoop.symm, levels_eq⟩

variable {gap : Text}

theorem spells_number {x : Float} (printable : (Expr.number x).IsPrintable) :
    ∃ sum, Spells ((Expr.number x).written gap) (.number x) sum := by
  obtain ⟨finite, noSign⟩ := printable
  have text : shortestText x = (Numeral.ofMagnitude x).digits := by
    rw [shortestText_eq finite, noSign]
    rfl
  have value : (Numeral.ofMagnitude x).literal.value = x := by
    rw [Numeral.value_literal, Numeral.value_ofMagnitude finite,
      Binary.ofBits_magnitudeBits finite noSign]
  have cut : Cut ((Numeral.ofMagnitude x).digits ++ []) [.number (Numeral.ofMagnitude x).digits] :=
    .number (Numeral.digits_ne_nil _) (Numeral.ofMagnitude x).good.1 nofun .nil
  rw [List.append_nil] at cut
  rw [Expr.written, text]
  exact (Leaf.number (Numeral.ofMagnitude x)).spells cut (congrArg Expr.number value) rfl rfl rfl

theorem spells_name {word : Text} (isName : Text.isName word = true) :
    ∃ sum, Spells ((Expr.name word).written gap) (.name word) sum := by
  have cut : Cut (word ++ []) [.name word] := .name isName nofun .nil
  rw [List.append_nil] at cut
  exact (Leaf.name word).spells cut rfl rfl rfl rfl

/-- A sign in front of an operand. -/
theorem Spells.negate {operand : Expr} {sum : Sum}
    (spells : Spells (operand.written gap) operand sum) :
    ∃ sum, Spells ((Expr.negate operand).written gap) (.negate operand) sum := by
  obtain ⟨sum, cut, same, strong, -, levels⟩ := spells.exists_enclosed le_rfl
  obtain ⟨leaf, rfl⟩ := sum.exists_leaf strong
  refine (Leaf.minus leaf).spells (.symbol rfl cut) (congrArg Expr.negate same) rfl rfl ?_
  rw [Expr.levels, ← levels]
  rfl

/-- An operator between two operands. -/
theorem Spells.binary (isBlank : ∀ c ∈ gap, Text.isBlank c = true) (op : Operator)
    {left right : Expr} {first second : Sum}
    (spellsLeft : Spells (left.written gap) left first)
    (spellsRight : Spells (right.written gap) right second) :
    ∃ sum, Spells ((Expr.binary op left right).written gap) (.binary op left right) sum := by
  have small : op.precedence + 1 ≤ 3 := by cases op <;> decide
  obtain ⟨first, cutLeft, rfl, strongLeft, operators, levelsLeft⟩ :=
    spellsLeft.exists_enclosed (Nat.le_of_succ_le small)
  obtain ⟨second, cutRight, rfl, strongRight, -, levelsRight⟩ := spellsRight.exists_enclosed small
  obtain ⟨sum, tokens, tree, strength, absorbed, levels⟩ :=
    Sum.exists_binary strongLeft strongRight
  refine ⟨sum, ?_, tree, strength, ?_, ?_⟩
  · rw [Expr.written, tokens]
    exact cutLeft.operator isBlank op cutRight
  · rw [absorbed, operators]
    rfl
  · rw [levels, levelsLeft, operators, levelsRight]
    rfl

/-- The name of a function in front of its arguments. -/
theorem cut_call {function text : Text} {tokens : List Token}
    (isName : Text.isName function = true) (cut : Cut text tokens) :
    Cut (function ++ '(' :: text) (.name function :: .openBracket :: tokens) := by
  refine .name isName ?_ (.symbol rfl cut)
  rintro c ⟨⟩
  exact ⟨rfl, by decide⟩

mutual

/-- **The text of a tree spells it.** -/
theorem spells_written (isBlank : ∀ c ∈ gap, Text.isBlank c = true) : ∀ tree : Expr,
    (∀ node ∈ tree.nodes, node.IsPrintable) → ∃ sum, Spells (tree.written gap) tree sum
  | .number x, printable => spells_number (printable _ List.mem_cons_self)
  | .name word, printable => spells_name (printable _ List.mem_cons_self)
  | .negate operand, printable => by
    obtain ⟨sum, spells⟩ := spells_written isBlank operand (List.forall_mem_cons.mp printable).2
    exact spells.negate
  | .binary op left right, printable => by
    obtain ⟨printableLeft, printableRight⟩ :=
      List.forall_mem_append.mp (List.forall_mem_cons.mp printable).2
    obtain ⟨first, spellsLeft⟩ := spells_written isBlank left printableLeft
    obtain ⟨second, spellsRight⟩ := spells_written isBlank right printableRight
    exact spellsLeft.binary isBlank op spellsRight
  | .call function arguments, printable => by
    obtain ⟨isName, printableArguments⟩ := List.forall_mem_cons.mp printable
    by_cases empty : arguments = []
    · subst empty
      exact (Leaf.emptyCall function).spells
        (cut_call isName (.symbol rfl .nil)) rfl rfl rfl rfl
    · obtain ⟨phrase, cut, trees, levels⟩ :=
        spells_writtenAll isBlank arguments empty printableArguments
      refine (Leaf.call function phrase).spells (cut_call isName cut)
        (congrArg (Expr.call function) trees) rfl rfl ?_
      rw [Expr.levels, ← levels, Leaf.levels]
      omega

/-- The texts of arguments spell them. -/
theorem spells_writtenAll (isBlank : ∀ c ∈ gap, Text.isBlank c = true) : ∀ trees : List Expr,
    trees ≠ [] → (∀ node ∈ Expr.nodesOf trees, node.IsPrintable) →
      ∃ arguments : Arguments, Cut (Expr.writtenAll gap trees) arguments.tokens ∧
        arguments.trees = trees ∧ arguments.levels = Expr.levelsOf trees
  | [], nonempty, _ => absurd rfl nonempty
  | [argument], _, printable => by
    obtain ⟨sum, spells⟩ := spells_written isBlank argument (List.forall_mem_append.mp printable).1
    refine ⟨.last sum, spells.cut.append (.symbol rfl .nil)
      (Token.endsWord_cons (by decide) []), ?_, ?_⟩
    · rw [Arguments.trees, spells.tree_eq]
    · rw [Arguments.levels, spells.levels_eq]
      exact (Nat.max_zero _).symm
  | argument :: next :: others, _, printable => by
    obtain ⟨printableFirst, printableOthers⟩ := List.forall_mem_append.mp printable
    obtain ⟨sum, spells⟩ := spells_written isBlank argument printableFirst
    obtain ⟨arguments, cut, trees, levels⟩ :=
      spells_writtenAll isBlank (next :: others) (List.cons_ne_nil _ _) printableOthers
    refine ⟨.more sum arguments, spells.cut.append (.symbol rfl (cut.blanks isBlank))
      (Token.endsWord_cons (by decide) _), ?_, ?_⟩
    · rw [Arguments.trees, spells.tree_eq, trees]
    · rw [Arguments.levels, spells.levels_eq, levels]
      rfl

end

end Grammar

namespace Expr

/-- **A printed tree reads back.** The text of a tree, with any white space for its gaps, is read as
the tree if reading it takes no more levels than there are, and is too deep if it takes more. -/
theorem ofText_written {gap : Text} (isBlank : ∀ c ∈ gap, Text.isBlank c = true) (tree : Expr)
    (printable : ∀ node ∈ tree.nodes, node.IsPrintable) :
    ∃ tokens, Token.ofText (tree.written gap) = .ok tokens ∧
      (tree.levels ≤ levelLimit → ofTokens tokens = .ok tree) ∧
      (levelLimit < tree.levels → ∃ index, ofTokens tokens = .error (.atToken index .tooDeep)) := by
  obtain ⟨sum, spells⟩ := Grammar.spells_written isBlank tree printable
  refine ⟨sum.tokens ++ [Token.endMark], ((Token.reads_iff_cut _ _).mpr spells.cut).1, ?_, ?_⟩
  · rw [← spells.levels_eq]
    intro enough
    rw [sum.ofTokens_eq [] enough, spells.tree_eq]
  · rw [← spells.levels_eq]
    exact sum.ofTokens_tooDeep []

/-- The tree of `8 - (6 - 3) * -x + f(1, y)`. -/
def mixed : Expr :=
  .binary .add
    (.binary .sub (.number 8)
      (.binary .mul (.binary .sub (.number 6) (.number 3)) (.negate (.name ['x']))))
    (.call ['f'] [.number 1, .name ['y']])

/-- Only the difference that is multiplied is written in brackets. -/
theorem ofText_written_mixed :
    Text.isBlank ' ' = true ∧ (∀ node ∈ mixed.nodes, node.IsPrintable) ∧
      mixed.levels ≤ levelLimit ∧ mixed.written [' '] = "8 - (6 - 3) * -x + f(1, y)".toList ∧
      ∃ tokens, Token.ofText "8 - (6 - 3) * -x + f(1, y)".toList = .ok tokens ∧
        ofTokens tokens = .ok mixed := by
  have isBlank : ∀ c ∈ [' '], Text.isBlank c = true := List.forall_mem_singleton.mpr rfl
  have literal : ∀ x ∈ [(8 : Float), 6, 3, 1], (number x).IsPrintable := by
    have finite : ∀ x ∈ [(8 : Float), 6, 3, 1], x.isFinite = true := by decide +kernel
    have noSign : ∀ x ∈ [(8 : Float), 6, 3, 1], hasSignBit x = false := by decide +kernel
    exact fun x isIn => ⟨finite x isIn, noSign x isIn⟩
  have printable : ∀ node ∈ mixed.nodes, node.IsPrintable := by
    simp only [List.forall_mem_cons] at literal
    obtain ⟨eight, six, three, one, -⟩ := literal
    have name (letter : Char) (start : Text.isName [letter] = true) :
        (name [letter]).IsPrintable := start
    simp only [mixed, nodes, nodesOf, List.cons_append, List.nil_append, List.forall_mem_cons]
    exact ⟨trivial, trivial, eight, trivial, trivial, six, three, trivial, name 'x' rfl,
      rfl, one, name 'y' rfl, List.forall_mem_nil _⟩
  have enough : mixed.levels ≤ levelLimit := by decide
  have text : mixed.written [' '] = "8 - (6 - 3) * -x + f(1, y)".toList := by decide +kernel
  obtain ⟨tokens, read, isTree, -⟩ := ofText_written isBlank mixed printable
  exact ⟨rfl, printable, enough, text, tokens, text ▸ read, isTree enough⟩

end Expr

end Worksheet

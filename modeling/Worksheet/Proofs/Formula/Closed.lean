/-
**What a formula with a value can have used.**

A word of a formula that is no variable stays a word when the others are replaced, and the reader
makes a name of it. So the names in the tree that is evaluated are known: a formula with a value has
called functions on the list only, each word of it is a variable or is called, and every number on
the way to its value is finite, whatever the variables hold.

* `substitute_around` and `standsAlone_substitute`: a word stands alone before and behind
  substitution;
* `name_mem_of_reads_substitute`: a word that is no variable is among the tokens;
* `evaluates_iff_sound`: which expressions and which formulas have a value.
-/

import Worksheet.Proofs.Expr.Sound
import Worksheet.Proofs.Formula.Meaning
import Worksheet.Proofs.Formula.Words

namespace Worksheet

namespace Variables

variable {scope : Variables}

/-! ### Words that stand alone -/

/-- A text that no word begins stays so. -/
theorem isWordPart_head?_substitute {text : Text}
    (border : ∀ c ∈ text.head?, Text.isWordPart c = false) :
    ∀ c ∈ (scope.substitute text).head?, Text.isWordPart c = false := by
  cases text with
  | nil => exact nofun
  | cons c rest =>
    rw [scope.substitute_cons (border c rfl)]
    exact border

/-- A text that no word ends stays so. -/
theorem isWordPart_getLast?_substitute (text : Text) :
    (∀ c ∈ text.getLast?, Text.isWordPart c = false) →
      ∀ c ∈ (scope.substitute text).getLast?, Text.isWordPart c = false := by
  induction text using Text.word_induction with
  | nil => exact fun _ => nofun
  | other c rest noPart ih =>
    intro border
    rw [scope.substitute_cons noPart]
    cases rest with
    | nil => exact border
    | cons d behind =>
      rw [List.getLast?_cons_cons] at border
      intro e isLast
      rw [List.getLast?_cons, Option.mem_some_iff] at isLast
      cases last : (scope.substitute (d :: behind)).getLast? with
      | none =>
        rw [last] at isLast
        exact isLast ▸ noPart
      | some f =>
        rw [last] at isLast
        exact isLast ▸ ih border f last
  | word word rest nonempty parts behind ih =>
    intro border
    cases rest with
    | nil =>
      rw [List.append_nil, List.getLast?_eq_some_getLast nonempty] at border
      have noPart := border _ rfl
      rw [parts _ (List.getLast_mem nonempty)] at noPart
      cases noPart
    | cons c later =>
      rw [List.getLast?_append_of_ne_nil _ (List.cons_ne_nil c later)] at border
      have kept := scope.substitute_cons (behind c rfl) later
      rw [scope.substitute_word parts nonempty behind,
        List.getLast?_append_of_ne_nil _ (by rw [kept]; exact List.cons_ne_nil _ _)]
      exact ih border

variable {front name back : Text}

/-- A word that stands alone is replaced apart from the texts around it. -/
theorem substitute_around (alone : Text.StandsAlone front name back) :
    scope.substitute (front ++ (name ++ back)) =
      scope.substitute front ++ (scope.substituteRun name ++ scope.substitute back) := by
  have parts := Text.isWordPart_of_isName alone.isName
  have nonempty := Text.ne_nil_of_isName alone.isName
  rw [scope.substitute_append, scope.substitute_word parts nonempty alone.behind]
  intro c isLast d isHead
  rw [List.head?_append_of_ne_nil _ nonempty] at isHead
  rw [alone.before c isLast, parts d (List.mem_of_head? isHead)]
  exact Bool.noConfusion

/-- A word still stands alone when the texts around it are replaced. -/
theorem standsAlone_substitute (alone : Text.StandsAlone front name back) :
    Text.StandsAlone (scope.substitute front) name (scope.substitute back) where
  isName := alone.isName
  before := isWordPart_getLast?_substitute front alone.before
  behind := isWordPart_head?_substitute alone.behind

/-- **A word that is no variable is read as a name.** -/
theorem name_mem_of_reads_substitute {text : Text} {body : List Token}
    (isWord : name ∈ Text.words text) (unbound : scope.get? name = none)
    (read : Token.Reads (scope.substitute text) body) : .name name ∈ body := by
  obtain ⟨front, back, rfl, alone⟩ := (Text.mem_words_iff text name).mp isWord
  have stays : scope.substituteRun name = name := by
    rw [substituteRun, if_pos alone.isName, unbound]
  rw [substitute_around alone, stays] at read
  exact (read.around (standsAlone_substitute alone)).1

/-! ### Calls -/

/-- A word of a formula is a variable, or the tree that is read calls it. -/
theorem isSome_or_exists_call {formula : Text} {tokens : List Token} {tree : Expr}
    (lexed : Token.ofText (scope.substitute formula) = .ok tokens)
    (parsed : Expr.ofTokens tokens = .ok tree) (sound : ∀ node ∈ tree.nodes, node.IsSound) :
    ∀ word ∈ Text.words formula, (scope.get? word).isSome = true ∨
      ∃ arguments, .call word arguments ∈ tree.nodes := by
  intro word isWord
  cases held : scope.get? word with
  | some value => exact Or.inl rfl
  | none =>
    obtain ⟨sum, read, rfl, -⟩ := Grammar.exists_of_reads lexed parsed
    have inTree := sum.mem_of_name_mem (name_mem_of_reads_substitute isWord held read)
    rcases List.mem_append.mp inTree with isValue | isCallee
    · exact (sound _ (sum.tree.name_mem_nodes isValue)).elim
    · exact Or.inr (sum.tree.exists_call_mem_nodes isCallee)

end Variables

/-- **Evaluating is closed.** An expression has a value exactly if no node of it is a name, every
literal is finite, every call is of a function on the list with as many arguments as it takes, and
every operation and call has a finite value; its value is the one computed from the leaves to the
root, and it is finite. A formula has the value of the tree that it is read into. So if it has one,
nothing but functions on the list has been called, every word has been a variable or the name of
such a function, and every node has had a finite value, whatever the variables hold. -/
theorem evaluates_iff_sound :
    (∀ (tree : Expr) (value : Float), tree.eval = .ok value ↔
      (∀ node ∈ tree.nodes, node.IsSound) ∧ tree.value? = some value ∧ value.isFinite = true) ∧
    ∀ (scope : Variables) (formula : Text) (value : Float), scope.evaluate formula = .ok value ↔
      ∃ tokens tree, Token.ofText (scope.substitute (spellOutPercentages formula)) = .ok tokens ∧
        Expr.ofTokens tokens = .ok tree ∧ tree.value? = some value ∧
        (∀ node ∈ tree.nodes, node.IsSound ∧ node.HasFiniteValue) ∧
        ∀ word ∈ Text.words (spellOutPercentages formula), (scope.get? word).isSome = true ∨
          ∃ arguments, .call word arguments ∈ tree.nodes := by
  constructor
  · intro tree value
    constructor
    · intro evaluates
      obtain ⟨sound, computed⟩ := (tree.eval_eq_ok_iff value).mp evaluates
      exact ⟨sound, computed, Expr.isFinite_of_eval evaluates⟩
    · rintro ⟨sound, computed, -⟩
      exact (tree.eval_eq_ok_iff value).mpr ⟨sound, computed⟩
  · intro scope formula value
    rw [Variables.evaluate, Variables.evaluateText_eq_ok_iff]
    constructor
    · rintro ⟨tokens, tree, lexed, parsed, evaluates⟩
      obtain ⟨sound, computed⟩ := (tree.eval_eq_ok_iff value).mp evaluates
      refine ⟨tokens, tree, lexed, parsed, computed, fun node isNode => ⟨sound node isNode, ?_⟩,
        Variables.isSome_or_exists_call lexed parsed sound⟩
      exact Expr.hasFiniteValue_of_sound fun below isBelow =>
        sound below (Expr.nodes_subset isNode isBelow)
    · rintro ⟨tokens, tree, lexed, parsed, computed, sound, -⟩
      exact ⟨tokens, tree, lexed, parsed,
        (tree.eval_eq_ok_iff value).mpr ⟨fun node isNode => (sound node isNode).1, computed⟩⟩

end Worksheet

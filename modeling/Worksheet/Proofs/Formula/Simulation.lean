/-
**Reading a text after substitution.**

The reader of a text and the reader of the text with the values of variables in it go side by side.
Outside of words they do the same; behind the name of a variable one has a name under construction
and the other a numeral, and as long as no point comes next both end there. What they find
corresponds token by token, a name to a numeral or to a sign and a numeral, except that a name glued
to a numeral is not replaced: then both have such a name.

* `Variables.tokensFor` are the tokens that take the place of a token;
* `Variables.Corresponds` relates the tokens found, and `Variables.Simulates` the two readers;
* `simulates_scan`: over a text without a variable beside a point, both readers fail or neither;
* `reads_substitute`: the tokens before and after substitution.
-/

import Worksheet.Proofs.Formula.Runs
import Worksheet.Proofs.Number.ReadBack

namespace Worksheet

open Token (Glued breakAt? ofSymbol? ofSymbol?_eq_some scan step)

/-! ### Tokens in place of tokens -/

/-- The tokens that the text of a number is read as. -/
def numberTokens (x : Float) : List Token :=
  (if x < 0 then [.operator .sub] else []) ++ [.number (Numeral.ofMagnitude x).digits]

namespace Variables

/-- The tokens that stand for a token once the values of variables are put in. -/
def tokensFor (scope : Variables) : Token → List Token
  | .name word =>
    match scope.get? word with
    | some (.number x) => numberTokens x
    | _ => [.name word]
  | token => [token]

/-- The variables that stand alone in a text are finite numbers. -/
def NumbersIn (scope : Variables) (text : Text) : Prop :=
  ∀ front name back value, text = front ++ (name ++ back) → Text.StandsAlone front name back →
    scope.get? name = some value → ∃ x, value = .number x ∧ x.isFinite = true

/-- The tokens found, the latest first, before and after substitution: token for token, or with a
name glued to a numeral in both. -/
def Corresponds (scope : Variables) (found replaced : List Token) : Prop :=
  (replaced = found.flatMap fun token => (scope.tokensFor token).reverse) ∨
    Glued found ∧ Glued replaced

variable {scope : Variables} {found replaced : List Token}

theorem Corresponds.cons (same : scope.Corresponds found replaced) (token : Token) :
    scope.Corresponds (token :: found) ((scope.tokensFor token).reverse ++ replaced) := by
  rcases same with rfl | ⟨glued, alsoGlued⟩
  · exact Or.inl rfl
  · exact Or.inr ⟨glued.of_suffix (List.suffix_cons _ _),
      alsoGlued.of_suffix (List.suffix_append _ _)⟩

/-- A token that stays on both sides. -/
theorem Corresponds.keep (same : scope.Corresponds found replaced) {token : Token}
    (stays : scope.tokensFor token = [token]) :
    scope.Corresponds (token :: found) (token :: replaced) := by
  have longer := same.cons token
  rw [stays] at longer
  exact longer

theorem Corresponds.close (same : scope.Corresponds found replaced) {word : OpenWord}
    {collected : Text} (numeral : word.numeral? = some collected) :
    scope.Corresponds (word.close found) (word.close replaced) := by
  cases word with
  | nothing => exact same
  | number _ => exact same.keep rfl
  | name _ => cases numeral

/-! ### The two readers -/

/-- The states of the two readers behind the same part of the text. -/
inductive Simulates (scope : Variables) (front : Text) :
    OpenWord × List Token → OpenWord × List Token → Prop where
  /-- No name is under construction. -/
  | outside {word : OpenWord} {collected : Text} {found replaced : List Token}
      (numeral : word.numeral? = some collected) (same : scope.Corresponds found replaced) :
      Simulates scope front (word, found) (word, replaced)
  /-- Behind a name that is not replaced. -/
  | kept {characters : Text} {found replaced : List Token}
      (same : scope.Corresponds (.name characters.reverse :: found)
        (.name characters.reverse :: replaced)) :
      Simulates scope front (.name characters, found) (.name characters, replaced)
  /-- Behind a name that a number has taken the place of. -/
  | filled {before name digits : Text} {found replaced : List Token}
      (isEnd : front = before ++ name) (isName : Text.isName name = true)
      (border : ∀ c ∈ before.getLast?, Text.isWordPart c = false)
      (bound : (scope.get? name).isSome = true)
      (same : scope.Corresponds (.name name :: found) (.number digits :: replaced)) :
      Simulates scope front (.name name.reverse, found) (.number digits.reverse, replaced)

variable {state other : OpenWord × List Token}

/-- When the words are closed, the tokens correspond. -/
theorem Simulates.corresponds {front : Text} (together : scope.Simulates front state other) :
    scope.Corresponds (state.1.close state.2) (other.1.close other.2) := by
  cases together with
  | outside numeral same => exact same.close numeral
  | kept same => exact same
  | filled isEnd isName border bound same =>
    rw [OpenWord.close, OpenWord.close, List.reverse_reverse, List.reverse_reverse]
    exact same

/-- Where the tokens correspond, a character between words does the same on both sides. -/
theorem Corresponds.breakAt? (front : Text) (same : scope.Corresponds found replaced) (c : Char) :
    Option.Rel (scope.Simulates front) (Token.breakAt? found c) (Token.breakAt? replaced c) := by
  unfold Token.breakAt?
  cases symbol : ofSymbol? c with
  | none =>
    dsimp only
    split
    · exact .some (.outside rfl same)
    · exact .none
  | some token =>
    obtain ⟨_, _, noName⟩ := ofSymbol?_eq_some symbol
    have stays : scope.tokensFor token = [token] := by
      cases token with
      | name word => exact absurd rfl (noName word)
      | _ => rfl
    exact .some (.outside rfl (same.keep stays))

/-- **A character that belongs to no word keeps the two readers together**, unless it is a point
behind the name of a variable. -/
theorem simulates_step {front rest : Text} {c : Char}
    (apart : ¬ scope.TouchesPoint (front ++ c :: rest)) (noPart : Text.isWordPart c = false)
    (together : scope.Simulates front state other) :
    Option.Rel (scope.Simulates (front ++ [c])) (step state.1 state.2 c)
      (step other.1 other.2 c) := by
  by_cases point : c = '.'
  · subst point
    cases together with
    | outside numeral same =>
      dsimp only
      rw [Token.step_numeralPart _ numeral rfl, Token.step_numeralPart _ numeral rfl]
      exact .some (.outside rfl same)
    | kept same => exact .none
    | @filled before name _ _ _ isEnd isName border bound same =>
      refine absurd ⟨before, name, '.' :: rest, ?_, ⟨isName, border, ?_⟩, bound, Or.inr rfl⟩ apart
      · rw [isEnd, List.append_assoc]
      · rintro c ⟨⟩
        rfl
  · rw [Token.step_separator _ _ noPart point, Token.step_separator _ _ noPart point]
    exact together.corresponds.breakAt? _ c

/-- The text of a number where no word is under construction is read as its tokens. -/
theorem scan_toText {x : Float} (finite : x.isFinite = true) (found : List Token) :
    ∃ earlier, scan (.nothing, found) (Value.number x).toText =
        some (.number (Numeral.ofMagnitude x).digits.reverse, earlier) ∧
      .number (Numeral.ofMagnitude x).digits :: earlier = (numberTokens x).reverse ++ found := by
  obtain ⟨parts, ⟨c, isIn, _⟩, _⟩ := (Numeral.ofMagnitude x).good
  have nonempty : (Numeral.ofMagnitude x).digits ≠ [] := List.ne_nil_of_mem isIn
  have numeral (found : List Token) : scan (.nothing, found) (Numeral.ofMagnitude x).digits =
      some (.number (Numeral.ofMagnitude x).digits.reverse, found) := by
    rw [Token.scan_numeral found rfl parts nonempty, List.append_nil]
  rw [Value.toText_number finite, numberTokens]
  by_cases negative : x < 0
  · rw [if_pos negative, if_pos negative]
    exact ⟨.operator .sub :: found, numeral _, rfl⟩
  · rw [if_neg negative, if_neg negative]
    exact ⟨found, numeral _, rfl⟩

/-- Both readers read a word, the second one what takes the word's place, and are together again. -/
def WordSimulates (scope : Variables) (front word : Text) (state other : OpenWord × List Token) :
    Prop :=
  ∃ next following, scan state word = some next ∧
    scan other (scope.substituteRun word) = some following ∧
    scope.Simulates (front ++ word) next following

section Words

variable {front word collected : Text} {start : OpenWord}

/-- A word that starts with a digit stays. -/
theorem Corresponds.digitLed (same : scope.Corresponds found replaced)
    (numeral : start.numeral? = some collected)
    (parts : ∀ c ∈ word, Text.isWordPart c = true) (noName : Text.isName word = false)
    (nonempty : word ≠ []) :
    scope.WordSimulates front word (start, found) (start, replaced) := by
  have stays : scope.substituteRun word = word := by
    rw [substituteRun, noName]
    rfl
  unfold WordSimulates
  rw [stays]
  rcases Token.scan_digitLed numeral parts noName nonempty with ⟨digits, read⟩ |
    ⟨characters, digits, read⟩
  · exact ⟨_, _, read found, read replaced, .outside rfl same⟩
  · -- The letters behind the digits are a name that no value takes the place of.
    have glued (tokens : List Token) :
        Glued (.name characters.reverse :: .number digits :: tokens) :=
      ⟨characters.reverse, digits, [], tokens, rfl⟩
    exact ⟨_, _, read found, read replaced, .kept (Or.inr ⟨glued _, glued _⟩)⟩

/-- A name that is no variable stays. -/
theorem Corresponds.unbound (same : scope.Corresponds found replaced)
    (numeral : start.numeral? = some collected) (isName : Text.isName word = true)
    (unbound : scope.get? word = none) :
    scope.WordSimulates front word (start, found) (start, replaced) := by
  have stays : scope.substituteRun word = word := by
    rw [substituteRun, if_pos isName, unbound]
  have token : scope.tokensFor (.name word) = [.name word] := by
    rw [tokensFor, unbound]
  unfold WordSimulates
  rw [stays]
  refine ⟨_, _, Token.scan_name found numeral isName, Token.scan_name replaced numeral isName,
    .kept ?_⟩
  rw [List.reverse_reverse]
  exact (same.close numeral).keep token

/-- A number takes the place of a variable where no word is under construction. -/
theorem Corresponds.bound (same : scope.Corresponds found replaced)
    (isName : Text.isName word = true)
    (border : ∀ c ∈ front.getLast?, Text.isWordPart c = false) {x : Float}
    (bound : scope.get? word = some (.number x)) (finite : x.isFinite = true) :
    scope.WordSimulates front word (.nothing, found) (.nothing, replaced) := by
  have text : scope.substituteRun word = (Value.number x).toText := by
    rw [substituteRun, if_pos isName, bound]
  have tokens : scope.tokensFor (.name word) = numberTokens x := by
    rw [tokensFor, bound]
  obtain ⟨earlier, readNumber, shape⟩ := scan_toText finite replaced
  unfold WordSimulates
  rw [text]
  refine ⟨_, _, Token.scan_name found rfl isName, readNumber,
    .filled rfl isName border (by rw [bound]; rfl) ?_⟩
  rw [shape, ← tokens]
  exact same.cons (.name word)

end Words

/-- **A whole word keeps the two readers together**, whether a number takes its place or not. -/
theorem simulates_word {front word rest : Text}
    (apart : ¬ scope.TouchesPoint (front ++ (word ++ rest)))
    (numbers : scope.NumbersIn (front ++ (word ++ rest)))
    (readFront : scan (.nothing, []) front = some state)
    (before : ∀ c ∈ front.getLast?, Text.isWordPart c = false)
    (behind : ∀ c ∈ rest.head?, Text.isWordPart c = false)
    (parts : ∀ c ∈ word, Text.isWordPart c = true) (nonempty : word ≠ [])
    (together : scope.Simulates front state other) : scope.WordSimulates front word state other := by
  have clear := Token.scan_front readFront before
  cases together with
  | kept same =>
    rcases clear with ⟨_, isNothing⟩ | ⟨_, _, isNumber⟩
    · cases isNothing
    · cases isNumber
  | filled isEnd isName border bound same =>
    rcases clear with ⟨_, isNothing⟩ | ⟨_, _, isNumber⟩
    · cases isNothing
    · cases isNumber
  | outside numeral same =>
    cases isName : Text.isName word with
    | false => exact same.digitLed numeral parts isName nonempty
    | true =>
      have alone : Text.StandsAlone front word rest := ⟨isName, before, behind⟩
      cases bound : scope.get? word with
      | none => exact same.unbound numeral isName bound
      | some value =>
        obtain ⟨x, rfl, finite⟩ := numbers front word rest value rfl alone bound
        rcases clear with ⟨_, rfl⟩ | ⟨point, _⟩
        · exact same.bound isName before bound finite
        · refine absurd ⟨front, word, rest, rfl, alone, ?_, Or.inl point⟩ apart
          rw [bound]
          rfl

/-- **The two readers stay together over a whole text**: both fail, or both end in states that
correspond. -/
theorem simulates_scan {whole : Text} (apart : ¬ scope.TouchesPoint whole)
    (numbers : scope.NumbersIn whole) :
    Option.Rel (scope.Simulates whole) (scan (.nothing, []) whole)
      (scan (.nothing, []) (scope.substitute whole)) := by
  -- Behind every part of the text that ends between two runs the readers are together.
  have general (text : Text) : ∀ front state other, whole = front ++ text →
      (∀ c ∈ front.getLast?, ∀ d ∈ text.head?, Text.isWordPart d = true →
        Text.isWordPart c = false) →
      scan (.nothing, []) front = some state → scope.Simulates front state other →
      Option.Rel (scope.Simulates whole) (scan state text)
        (scan other (scope.substitute text)) := by
    induction text using Text.word_induction with
    | nil =>
      intro front state other split _ _ together
      rw [List.append_nil] at split
      rw [split]
      exact .some together
    | other c rest noPart ih =>
      intro front state other split _ readFront together
      have stepped := simulates_step (split ▸ apart) noPart together
      have readLonger (next) (isNext : step state.1 state.2 c = some next) :
          scan (.nothing, []) (front ++ [c]) = some next := by
        rw [Token.scan_append, readFront, Option.bind_some, Token.scan_cons, isNext]
        rfl
      have longer : whole = (front ++ [c]) ++ rest := by
        rw [split, List.append_assoc]
        rfl
      rw [substitute_cons scope noPart, Token.scan_cons, Token.scan_cons]
      revert stepped readLonger
      generalize step state.1 state.2 c = left
      generalize step other.1 other.2 c = right
      rintro (⟨next⟩ | _) readLonger
      · refine ih (front ++ [c]) _ _ longer ?_ (readLonger _ rfl) next
        rintro d isLast _ _ _
        rw [List.getLast?_concat] at isLast
        cases isLast
        exact noPart
      · exact .none
    | word word rest nonempty parts behind ih =>
      intro front state other split border readFront together
      have before : ∀ c ∈ front.getLast?, Text.isWordPart c = false := by
        intro c isLast
        obtain ⟨d, others, rfl⟩ := List.exists_cons_of_ne_nil nonempty
        exact border c isLast d rfl (parts d List.mem_cons_self)
      obtain ⟨next, following, left, right, later⟩ := simulates_word (split ▸ apart)
        (split ▸ numbers) readFront before behind parts nonempty together
      have readLonger : scan (.nothing, []) (front ++ word) = some next := by
        rw [Token.scan_append, readFront]
        exact left
      have longer : whole = (front ++ word) ++ rest := by
        rw [split, List.append_assoc]
      rw [substitute_word scope parts nonempty behind, Token.scan_append, Token.scan_append, left,
        right]
      refine ih (front ++ word) next following longer ?_ readLonger later
      intro c _ d isHead part
      rw [behind d isHead] at part
      cases part
  exact general whole [] (.nothing, []) (.nothing, []) rfl nofun rfl (.outside rfl (Or.inl rfl))

/-! ### Whole texts -/

/-- The tokens of a text and of what substitution makes of it: token for token, or with a name glued
to a numeral in both. -/
def Counterparts (scope : Variables) (body replaced : List Token) : Prop :=
  replaced = body.flatMap scope.tokensFor ∨ Token.GluedIn body ∧ Token.GluedIn replaced

theorem Corresponds.counterparts (same : scope.Corresponds found replaced) :
    scope.Counterparts found.reverse replaced.reverse := by
  rcases same with rfl | ⟨glued, alsoGlued⟩
  · refine Or.inl ?_
    rw [List.reverse_flatMap]
    congr
    funext token
    exact List.reverse_reverse _
  · exact Or.inr ⟨(Token.glued_iff _).mp glued, (Token.glued_iff _).mp alsoGlued⟩

variable {text : Text} {body : List Token}

/-- **Substitution leaves a text its tokens**: one of the two texts has tokens if the other has, and
those after substitution are the counterparts of those before. -/
theorem reads_substitute (apart : ¬ scope.TouchesPoint text) (numbers : scope.NumbersIn text) :
    (∀ body, Token.Reads text body →
      ∃ replaced, Token.Reads (scope.substitute text) replaced ∧
        scope.Counterparts body replaced) ∧
    ∀ replaced, Token.Reads (scope.substitute text) replaced →
      ∃ body, Token.Reads text body ∧ scope.Counterparts body replaced := by
  have together := simulates_scan apart numbers
  simp only [Token.reads_iff]
  generalize scan (.nothing, []) text = before at together ⊢
  generalize scan (.nothing, []) (scope.substitute text) = after at together ⊢
  cases together with
  | none => exact ⟨nofun, nofun⟩
  | some together =>
    constructor
    · rintro _ ⟨_, _, ⟨⟩, rfl⟩
      exact ⟨_, ⟨_, _, rfl, rfl⟩, together.corresponds.counterparts⟩
    · rintro _ ⟨_, _, ⟨⟩, rfl⟩
      exact ⟨_, ⟨_, _, rfl, rfl⟩, together.corresponds.counterparts⟩

/-- In a text whose tokens have no name glued to a numeral no variable touches a point. -/
theorem not_touchesPoint (read : Token.Reads text body) (apart : ¬ Token.GluedIn body) :
    ¬ scope.TouchesPoint text := by
  rintro ⟨front, name, back, rfl, alone, _, point⟩
  obtain ⟨_, noPoint, glued⟩ := read.around alone
  rcases point with before | behind
  · exact apart (glued before)
  · exact noPoint behind

end Variables

end Worksheet

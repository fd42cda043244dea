/-
**The places of names.**

To the reader of tokens a name is a token, and to substitution it is what the pattern of names
finds. In a text that has tokens both find the same names at the same places, except that a token
may start directly behind a digit, where there is no border of a word. Substitution puts the values
of variables in the places that the pattern finds, each once, and leaves everything else as it
stands.

* `Text.Spliced` is a text in which parts are replaced, and `Spliced.unique`: there is only one;
* `Variables.spliced_substitute`: substitution replaces the names of variables;
* `Token.placed` are the places of tokens in the text that they are read from;
* `Token.findsNames_of_cut`: the pattern finds the names among them;
* `Text.namePlaces_exact` puts both together.
-/

import Worksheet.Proofs.Expr.TokenText
import Worksheet.Proofs.Formula.Runs
import Worksheet.Proofs.Text.NamePattern

namespace Worksheet

namespace Text

/-! ### Parts of a text replaced -/

/-- A part of a text, from a place on, and what takes its place. -/
structure Replacement where
  start : Nat
  old : Text
  new : Text
deriving DecidableEq

/-- A text, whose places are counted from an index on, with the replacements made one after the
other: each old part stands at its place, and all else stays. -/
inductive Spliced : Nat → Text → List Replacement → Text → Prop
  | nil {index : Nat} {text : Text} : Spliced index text [] text
  | cons {index : Nat} {gap behind result : Text} {change : Replacement}
      {others : List Replacement} (starts : change.start = index + gap.length)
      (later : Spliced (change.start + change.old.length) behind others result) :
      Spliced index (gap ++ (change.old ++ behind)) (change :: others)
        (gap ++ (change.new ++ result))

variable {index : Nat} {text back result other : Text} {changes : List Replacement}

/-- What stands in front of all places stays. -/
theorem Spliced.append (front : Text)
    (spliced : Spliced (index + front.length) back changes result) :
    Spliced index (front ++ back) changes (front ++ result) := by
  cases spliced with
  | nil => exact .nil
  | @cons _ gap behind result change others starts later =>
    have startsToo : change.start = index + (front ++ gap).length := by
      rw [starts, List.length_append, Nat.add_assoc]
    have whole := Spliced.cons startsToo later
    rwa [List.append_assoc, List.append_assoc] at whole

/-- A part at the start is replaced. -/
theorem Spliced.first (old new : Text)
    (spliced : Spliced (index + old.length) back changes result) :
    Spliced index (old ++ back) (⟨index, old, new⟩ :: changes) (new ++ result) := by
  have starts : (⟨index, old, new⟩ : Replacement).start = index + ([] : Text).length := rfl
  exact .cons starts spliced

/-- The replacements determine the result. -/
theorem Spliced.unique (spliced : Spliced index text changes result)
    (splicedToo : Spliced index text changes other) : result = other := by
  induction spliced generalizing other with
  | nil =>
    cases splicedToo
    rfl
  | @cons index gap behind result change others starts later ih =>
    generalize whole : gap ++ (change.old ++ behind) = text at splicedToo
    cases splicedToo with
    | @cons _ gapToo behindToo resultToo _ _ startsToo laterToo =>
      have sameLength : gap.length = gapToo.length := by omega
      obtain ⟨rfl, parts⟩ := List.append_inj whole sameLength
      obtain rfl := List.append_cancel_left parts
      rw [ih laterToo]

end Text

namespace Variables

variable (scope : Variables)

/-! ### Substitution -/

/-- The texts of values in the places of names, where the names are variables. -/
def replacements (places : List (Nat × Text)) : List Text.Replacement :=
  places.filterMap fun place =>
    (scope.get? place.2).map fun value => ⟨place.1, place.2, value.toText⟩

theorem replacements_cons (place : Nat × Text) (others : List (Nat × Text)) :
    scope.replacements (place :: others) =
      ((scope.get? place.2).map fun value => ⟨place.1, place.2, value.toText⟩).toList ++
        scope.replacements others := by
  unfold replacements
  rw [List.filterMap_cons]
  cases scope.get? place.2 <;> rfl

/-- A word is replaced if the pattern finds a variable in it, and else it stays. -/
theorem spliced_word {passed word rest result : Text}
    (parts : ∀ c ∈ word, Text.isWordPart c = true)
    (before : ∀ b ∈ passed.head?, Text.isWordPart b = false)
    (behind : ∀ c ∈ rest.head?, Text.isWordPart c = false)
    (spliced : Text.Spliced (passed.length + word.length) rest
      (scope.replacements (Text.namePlacesFrom 0 (word.reverse ++ passed) rest)) result) :
    Text.Spliced passed.length (word ++ rest)
      (scope.replacements (Text.namePlacesFrom 0 passed (word ++ rest)))
      (scope.substituteRun word ++ result) := by
  unfold substituteRun
  cases isName : Text.isName word with
  | false =>
    rw [Text.namePlacesFrom_of_not_isName parts isName]
    exact spliced.append word
  | true =>
    rw [if_pos rfl, Text.namePlacesFrom_name isName before behind, replacements_cons]
    cases scope.get? word with
    | none => exact spliced.append word
    | some value => exact spliced.first word value.toText

/-- **Substitution replaces the names of variables and nothing else.** -/
theorem spliced_substitute (text passed : Text)
    (clear : ∀ b ∈ passed.head?, Text.isWordPart b = true →
      ∀ c ∈ text.head?, Text.isWordPart c = false) :
    Text.Spliced passed.length text (scope.replacements (Text.namePlacesFrom 0 passed text))
      (scope.substitute text) := by
  induction text using Text.word_induction generalizing passed with
  | nil => exact .nil
  | other c rest noPart ih =>
    have clearToo : ∀ b ∈ (c :: passed).head?, Text.isWordPart b = true →
        ∀ d ∈ rest.head?, Text.isWordPart d = false := by
      rintro b ⟨⟩ part
      rw [noPart] at part
      cases part
    have behind := ih (c :: passed) clearToo
    have noStart := Text.isWordStart_eq_false noPart
    rw [substitute_cons scope noPart, Text.namePlacesFrom_cons (Text.nameAt?_of_noStart _ noStart)]
    exact behind.append [c]
  | word word rest nonempty parts border ih =>
    have before : ∀ b ∈ passed.head?, Text.isWordPart b = false := by
      intro b isHead
      rw [← Bool.not_eq_true]
      intro part
      obtain ⟨c, others, rfl⟩ := List.exists_cons_of_ne_nil nonempty
      have noPart := clear b isHead part c rfl
      rw [parts c List.mem_cons_self] at noPart
      cases noPart
    have behind := ih (word.reverse ++ passed) fun _ _ _ => border
    rw [List.length_append, List.length_reverse, Nat.add_comm] at behind
    rw [substitute_word scope parts nonempty border]
    exact scope.spliced_word parts before border behind

end Variables

namespace Token

/-! ### Names among the tokens -/

/-- The word of a name. -/
def word? : Token → Option Text
  | name word => some word
  | _ => none

/-- The places of tokens in a text, counted from an index on: each token stands behind white space,
where the one before it ends. -/
def placedFrom (index : Nat) (text : Text) : List Token → List (Nat × Token)
  | [] => []
  | token :: others =>
    let start := index + (text.takeWhile Text.isBlank).length
    (start, token) ::
      placedFrom (start + token.text.length) ((Text.trimStart text).drop token.text.length) others

/-- The places of tokens in the text that they were read from. -/
def placed (text : Text) (tokens : List Token) : List (Nat × Token) :=
  placedFrom 0 text tokens

/-- Those of the places where a name stands. -/
def namesAt (places : List (Nat × Token)) : List (Nat × Text) :=
  places.filterMap fun place => place.2.word?.map (Prod.mk place.1)

/-- Directly in front of the place there is a digit. -/
def isBehindDigit (text : Text) (place : Nat) : Bool :=
  (text.take place).getLast?.any Char.isDigit

theorem namesAt_cons (start : Nat) (token : Token) (places : List (Nat × Token)) :
    namesAt ((start, token) :: places) =
      (token.word?.map (Prod.mk start)).toList ++ namesAt places := by
  unfold namesAt
  rw [List.filterMap_cons]
  dsimp only
  cases token.word? <;> rfl

/-- The character in front of what has not been passed is the last one that has. -/
theorem isBehindDigit_length (passed rest : Text) :
    isBehindDigit (passed.reverse ++ rest) passed.length = passed.head?.any Char.isDigit := by
  have front : (passed.reverse ++ rest).take passed.length = passed.reverse := by
    rw [← List.length_reverse, List.take_left]
  rw [isBehindDigit, front, List.getLast?_reverse]

/-- Every token has a place. -/
theorem map_snd_placedFrom (index : Nat) (text : Text) (tokens : List Token) :
    (placedFrom index text tokens).map Prod.snd = tokens := by
  induction tokens generalizing index text with
  | nil => rfl
  | cons token others ih => rw [placedFrom, List.map_cons, ih]

variable {index : Nat} {passed rest : Text} {token : Token} {tokens : List Token}

/-- Tokens stand behind white space. -/
theorem placedFrom_blank {c : Char} (isBlank : Text.isBlank c = true) (index : Nat) (rest : Text)
    (tokens : List Token) :
    placedFrom index (c :: rest) tokens = placedFrom (index + 1) rest tokens := by
  cases tokens with
  | nil => rfl
  | cons token others =>
    have start : index + ((c :: rest).takeWhile Text.isBlank).length =
        index + 1 + (rest.takeWhile Text.isBlank).length := by
      rw [List.takeWhile_cons_of_pos isBlank, List.length_cons]
      omega
    have behind : Text.trimStart (c :: rest) = Text.trimStart rest :=
      List.dropWhile_cons_of_pos isBlank
    rw [placedFrom, placedFrom, start, behind]

/-- A token stands at the start of its own text. -/
theorem placedFrom_cons (noBlank : ∀ c ∈ (token.text ++ rest).head?, Text.isBlank c = false)
    (index : Nat) (tokens : List Token) :
    placedFrom index (token.text ++ rest) (token :: tokens) =
      (index, token) :: placedFrom (index + token.text.length) rest tokens := by
  have noGap : (token.text ++ rest).takeWhile Text.isBlank = [] :=
    Text.takeWhile_append (List.forall_mem_nil _) noBlank
  have whole : Text.trimStart (token.text ++ rest) = token.text ++ rest :=
    Text.dropWhile_append (List.forall_mem_nil _) noBlank
  rw [placedFrom, noGap, whole, List.drop_left]
  rfl

/-! ### Where tokens start -/

theorem isBlank_head?_symbol {c : Char} (isSymbol : ofSymbol? c = some token) (rest : Text) :
    ∀ d ∈ (token.text ++ rest).head?, Text.isBlank d = false := by
  rw [text_of_ofSymbol? isSymbol]
  rintro d ⟨⟩
  exact (class_of_mem_symbols c (mem_symbols isSymbol)).2.2

theorem isBlank_head?_numeral {digits : Text} (nonempty : digits ≠ [])
    (parts : ∀ c ∈ digits, isNumeralPart c = true) (rest : Text) :
    ∀ c ∈ (digits ++ rest).head?, Text.isBlank c = false :=
  Text.forall_head?_of_forall_mem nonempty
    (fun c isIn => Text.isBlank_eq_false_of_isNumeralPart (parts c isIn)) rest

theorem isBlank_head?_name {word : Text} (isName : Text.isName word = true) (rest : Text) :
    ∀ c ∈ (word ++ rest).head?, Text.isBlank c = false :=
  Text.forall_head?_of_forall_mem (Text.ne_nil_of_isName isName)
    (Text.isBlank_eq_false_of_isName isName) rest

/-- The tokens stand at their places, counted from an index on. -/
def StandIn (index : Nat) (text : Text) (places : List (Nat × Token)) : Prop :=
  ∀ place ∈ places, index ≤ place.1 ∧ place.2.text <+: text.drop (place.1 - index)

/-- Behind a part of the text places are counted from its end on. -/
theorem StandIn.append (piece : Text) {places : List (Nat × Token)}
    (stand : StandIn (index + piece.length) rest places) :
    StandIn index (piece ++ rest) places := by
  intro place isIn
  obtain ⟨behind, stands⟩ := stand place isIn
  refine ⟨by omega, ?_⟩
  rwa [List.drop_append, List.drop_eq_nil_of_le (by omega), List.nil_append, Nat.sub_sub]

/-- A token in front stands at its place. -/
theorem StandIn.cons (noBlank : ∀ c ∈ (token.text ++ rest).head?, Text.isBlank c = false)
    (stand : StandIn (index + token.text.length) rest
      (placedFrom (index + token.text.length) rest tokens)) :
    StandIn index (token.text ++ rest)
      (placedFrom index (token.text ++ rest) (token :: tokens)) := by
  rw [placedFrom_cons noBlank]
  refine List.forall_mem_cons.mpr ⟨⟨le_rfl, ?_⟩, stand.append token.text⟩
  dsimp only
  rw [Nat.sub_self, List.drop_zero]
  exact List.prefix_append _ _

/-- **Each token stands at its place.** -/
theorem standIn_of_cut {text : Text} {body : List Token} (cut : Cut text body) (index : Nat) :
    StandIn index text (placedFrom index text (body ++ [.endMark])) := by
  induction cut generalizing index with
  | nil => exact List.forall_mem_singleton.mpr ⟨le_rfl, List.nil_prefix⟩
  | @blank c rest tokens isBlank others ih =>
    rw [placedFrom_blank isBlank]
    exact (ih (index + 1)).append [c]
  | @symbol c token rest tokens isSymbol others ih =>
    have stand := StandIn.cons (isBlank_head?_symbol isSymbol rest) (ih (index + token.text.length))
    rwa [text_of_ofSymbol? isSymbol] at stand
  | @number digits rest tokens nonempty parts border others ih =>
    show StandIn index ((Token.number digits).text ++ rest) _
    exact .cons (isBlank_head?_numeral nonempty parts rest) (ih _)
  | @name word rest tokens isName border others ih =>
    show StandIn index ((Token.name word).text ++ rest) _
    exact .cons (isBlank_head?_name isName rest) (ih _)

/-! ### The pattern and the reader -/

/-- Behind the characters `passed`, which are in reverse, the pattern finds the names among the
tokens that do not stand directly behind a digit. -/
def FindsNames (passed text : Text) (tokens : List Token) : Prop :=
  Text.namePlacesFrom 0 passed text =
    (namesAt (placedFrom passed.length text tokens)).filter fun place =>
      !isBehindDigit (passed.reverse ++ text) place.1

theorem FindsNames.blank {c : Char} (isBlank : Text.isBlank c = true)
    (finds : FindsNames (c :: passed) rest tokens) : FindsNames passed (c :: rest) tokens := by
  have noStart := Text.isWordStart_eq_false (class_of_isBlank isBlank).1
  have whole : (c :: passed).reverse ++ rest = passed.reverse ++ c :: rest := by simp
  unfold FindsNames at finds ⊢
  rw [whole] at finds
  rw [Text.namePlacesFrom_cons (Text.nameAt?_of_noStart _ noStart), placedFrom_blank isBlank, finds]
  rfl

/-- A token in front, of which the pattern finds what it should. -/
theorem FindsNames.cons (noBlank : ∀ c ∈ (token.text ++ rest).head?, Text.isBlank c = false)
    (here : Text.namePlacesFrom 0 passed (token.text ++ rest) =
      ((token.word?.map (Prod.mk passed.length)).toList.filter fun _ =>
        !passed.head?.any Char.isDigit) ++
          Text.namePlacesFrom 0 (token.text.reverse ++ passed) rest)
    (finds : FindsNames (token.text.reverse ++ passed) rest tokens) :
    FindsNames passed (token.text ++ rest) (token :: tokens) := by
  have whole : (token.text.reverse ++ passed).reverse ++ rest =
      passed.reverse ++ (token.text ++ rest) := by simp
  have length : (token.text.reverse ++ passed).length = passed.length + token.text.length := by
    rw [List.length_append, List.length_reverse, Nat.add_comm]
  unfold FindsNames at finds ⊢
  rw [whole, length] at finds
  rw [here, finds, placedFrom_cons noBlank, namesAt_cons, List.filter_append]
  cases token.word? with
  | none => rfl
  | some word =>
    rw [Option.map_some, Option.toList_some, List.filter_singleton, List.filter_singleton,
      isBehindDigit_length]

/-- A token in front that is no name. -/
theorem FindsNames.noName (noWord : token.word? = none)
    (noStart : ∀ c ∈ token.text, Text.isWordStart c = false)
    (noBlank : ∀ c ∈ (token.text ++ rest).head?, Text.isBlank c = false)
    (finds : FindsNames (token.text.reverse ++ passed) rest tokens) :
    FindsNames passed (token.text ++ rest) (token :: tokens) := by
  refine .cons noBlank ?_ finds
  rw [noWord, Text.namePlacesFrom_outside noStart]
  rfl

/-- A name in front, behind a digit or outside of words. -/
theorem FindsNames.name {word : Text} (isName : Text.isName word = true)
    (before : ∀ b ∈ passed.head?, Text.isWordPart b = true → b.isDigit = true)
    (behind : ∀ c ∈ rest.head?, Text.isWordPart c = false)
    (finds : FindsNames (word.reverse ++ passed) rest tokens) :
    FindsNames passed (word ++ rest) (.name word :: tokens) := by
  have here : Text.namePlacesFrom 0 passed (word ++ rest) =
      ([(passed.length, word)].filter fun _ => !passed.head?.any Char.isDigit) ++
        Text.namePlacesFrom 0 (word.reverse ++ passed) rest := by
    cases behindDigit : passed.head?.any Char.isDigit with
    | true =>
      obtain ⟨b, isHead, digit⟩ := (Option.any_eq_true _ _).mp behindDigit
      obtain ⟨others, rfl⟩ := List.head?_eq_some_iff.mp isHead
      exact Text.namePlacesFrom_inside (Text.isWordPart_of_isDigit b digit)
        (Text.isWordPart_of_isName isName)
    | false =>
      refine Text.namePlacesFrom_name isName (fun b isHead => ?_) behind
      rw [← Bool.not_eq_true]
      intro part
      have noDigit := (Option.any_eq_false _ _).mp behindDigit b isHead
      rw [before b isHead part] at noDigit
      cases noDigit
  show FindsNames passed ((Token.name word).text ++ rest) (.name word :: tokens)
  exact .cons (isBlank_head?_name isName rest) here finds

/-- **The pattern finds the names among the tokens, except those directly behind a digit.** What
carries the induction is that in front of a token there is a digit, or no word goes on in it. -/
theorem findsNames_of_cut {text : Text} {body : List Token} (cut : Cut text body) {passed : Text}
    (clear : ∀ b ∈ passed.head?, Text.isWordPart b = true →
      b.isDigit = true ∨ ∀ c ∈ text.head?, Text.isWordPart c = false) :
    FindsNames passed text (body ++ [.endMark]) := by
  induction cut generalizing passed with
  | nil => rfl
  | @blank c rest tokens isBlank others ih =>
    refine .blank isBlank (ih ?_)
    rintro b ⟨⟩ part
    rw [(class_of_isBlank isBlank).1] at part
    cases part
  | @symbol c token rest tokens isSymbol others ih =>
    have noPart := (class_of_mem_symbols c (mem_symbols isSymbol)).1
    have text := text_of_ofSymbol? isSymbol
    have noWord : token.word? = none := by
      have noName := (ofSymbol?_eq_some isSymbol).2.2
      cases token with
      | name word => exact absurd rfl (noName word)
      | _ => rfl
    have noStart : ∀ d ∈ token.text, Text.isWordStart d = false := by
      rw [text]
      exact List.forall_mem_singleton.mpr (Text.isWordStart_eq_false noPart)
    have finds : FindsNames (token.text.reverse ++ passed) rest (tokens ++ [.endMark]) := by
      rw [text]
      refine ih ?_
      rintro b ⟨⟩ part
      rw [noPart] at part
      cases part
    have whole := FindsNames.noName noWord noStart (isBlank_head?_symbol isSymbol rest) finds
    rwa [text] at whole
  | @number digits rest tokens nonempty parts border others ih =>
    have noStart : ∀ c ∈ digits, Text.isWordStart c = false := by
      intro c isIn
      rw [← Bool.not_eq_true]
      intro start
      have noPart := isNumeralPart_eq_false_of_isWordStart start
      rw [parts c isIn] at noPart
      cases noPart
    have finds : FindsNames (digits.reverse ++ passed) rest (tokens ++ [.endMark]) := by
      refine ih fun b isHead part => Or.inl ?_
      rw [List.head?_append_of_ne_nil _ (by simpa using nonempty)] at isHead
      have isIn := List.mem_reverse.mp (List.mem_of_head? isHead)
      refine ((isNumeralPart_iff b).mp (parts b isIn)).resolve_right ?_
      rintro rfl
      cases part
    show FindsNames passed ((Token.number digits).text ++ rest) _
    exact .noName rfl noStart (isBlank_head?_numeral nonempty parts rest) finds
  | @name word rest tokens isName border others ih =>
    have starts : ∀ b ∈ passed.head?, Text.isWordPart b = true → b.isDigit = true := by
      intro b isHead part
      refine (clear b isHead part).resolve_right fun noPart => ?_
      obtain ⟨c, others, rfl⟩ := List.exists_cons_of_ne_nil (Text.ne_nil_of_isName isName)
      have first := noPart c rfl
      rw [Text.isWordPart_of_isName isName c List.mem_cons_self] at first
      cases first
    have ends : ∀ c ∈ rest.head?, Text.isWordPart c = false := fun c isHead => (border c isHead).1
    exact .name isName starts ends (ih fun _ _ _ => Or.inr ends)

end Token

/-- **The pattern, the reader and substitution agree on the names of a text.** If the text has
tokens, then each token has a place and stands there, and the pattern finds just those names among
them that do not stand directly behind a digit, in their order and at their places. Substitution
puts the values of variables in the places that the pattern finds, each once, and leaves all else as
it stands; this determines its result. -/
theorem Text.namePlaces_exact (text : Text) :
    (∀ tokens, Token.ofText text = .ok tokens →
      (Token.placed text tokens).map Prod.snd = tokens ∧
      (∀ place ∈ Token.placed text tokens, place.2.text <+: text.drop place.1) ∧
      namePlaces text = (Token.namesAt (Token.placed text tokens)).filter fun place =>
        !Token.isBehindDigit text place.1) ∧
    ∀ (scope : Variables) result, Spliced 0 text (scope.replacements (namePlaces text)) result ↔
      result = scope.substitute text := by
  constructor
  · intro tokens read
    obtain ⟨body, rfl, reads⟩ := Token.exists_reads read
    have cut := (Token.reads_iff_cut text body).mp reads
    refine ⟨Token.map_snd_placedFrom 0 text _, fun place isIn => ?_, ?_⟩
    · exact (Token.standIn_of_cut cut 0 place isIn).2
    · exact Token.findsNames_of_cut cut nofun
  · intro scope result
    have spliced := scope.spliced_substitute text [] nofun
    constructor
    · intro other
      exact other.unique spliced
    · rintro rfl
      exact spliced

/-- A formula with a name behind a digit, two variables, one of them behind a point, and a name that
is no variable. -/
def Text.rateFormula : Text :=
  "2rate + rate*5.rate - rate2".toList

/-- The two variables are found and replaced, and the name behind a digit is not. -/
theorem Text.namePlaces_exact_rate :
    (∃ tokens, Token.ofText rateFormula = .ok tokens) ∧
      namePlaces rateFormula =
        [(8, "rate".toList), (15, "rate".toList), (22, "rate2".toList)] ∧
      Spliced 0 rateFormula
        [⟨8, "rate".toList, "-7".toList⟩, ⟨15, "rate".toList, "-7".toList⟩]
        "2rate + -7*5.-7 - rate2".toList := by
  have read : Token.ofText rateFormula = .ok [.number "2".toList, .name "rate".toList,
      .operator .add, .name "rate".toList, .operator .mul, .number "5.".toList,
      .name "rate".toList, .operator .sub, .name "rate2".toList, .endMark] := rfl
  have found := ((namePlaces_exact rateFormula).1 _ read).2.2
  have spliced := ((namePlaces_exact rateFormula).2
    (Variables.empty.set "rate".toList (.number (-7))) _).mpr rfl
  have changes : (Variables.empty.set "rate".toList (.number (-7))).replacements
      (namePlaces rateFormula) =
        [⟨8, "rate".toList, "-7".toList⟩, ⟨15, "rate".toList, "-7".toList⟩] := by
    decide +kernel
  have result : (Variables.empty.set "rate".toList (.number (-7))).substitute rateFormula =
      "2rate + -7*5.-7 - rate2".toList := by decide +kernel
  rw [changes, result] at spliced
  exact ⟨⟨_, read⟩, found.trans (by decide), spliced⟩

end Worksheet

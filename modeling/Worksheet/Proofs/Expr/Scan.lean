/-
**Reading tokens as a machine.**

The state of the reader is the word under construction with the tokens found. Reading a text in two
parts is reading the second part from the state behind the first one, so what becomes of a name or
of a numeral in a text can be said where it stands.

* `Token.scan` runs the reader over a text, and `ofText_eq_ok_iff` says what comes out at the end;
* `step_cases` is all that a step can do, and `scan_preserves` carries it over a text;
* `scan_name` and `scan_numeral` read one word;
* `scan_digitLed`: a word that starts with a digit is a numeral, or a numeral with a name glued to
  it;
* `Reads.around`: what a name standing alone in a text leaves among its tokens.
-/

import Mathlib.Data.List.Infix
import Mathlib.Data.List.TakeWhile
import Worksheet.Expr.Token

namespace Worksheet

namespace Text

/-! ### Classes of characters -/

theorem isWordPart_iff (c : Char) :
    isWordPart c = true ↔ isWordStart c = true ∨ c.isDigit = true := by
  unfold isWordPart isWordStart Char.isAlphanum
  grind

theorem isDigit_eq_false_of_isWordStart {c : Char} (start : isWordStart c = true) :
    c.isDigit = false := by
  rw [← Bool.not_eq_true]
  intro digit
  unfold Char.isDigit at digit
  unfold isWordStart Char.isAlpha Char.isUpper Char.isLower at start
  simp only [Bool.and_eq_true, Bool.or_eq_true, decide_eq_true_eq, beq_iff_eq, ge_iff_le,
    UInt32.le_iff_toNat_le] at digit start
  have nine : '9'.val.toNat = 57 := rfl
  have upper : 'A'.val.toNat = 65 := rfl
  have lower : 'a'.val.toNat = 97 := rfl
  rcases start with (inUpper | inLower) | rfl
  · omega
  · omega
  · exact absurd digit (by decide)

/-- A name is a word. -/
theorem isWordPart_of_isName {name : Text} (isName : isName name = true) :
    ∀ c ∈ name, isWordPart c = true := by
  cases name with
  | nil => nofun
  | cons c rest =>
    rw [Text.isName, Bool.and_eq_true, List.all_eq_true] at isName
    intro d isIn
    rw [List.mem_cons] at isIn
    rcases isIn with rfl | inRest
    · exact isWordPart_of_isWordStart d isName.1
    · exact isName.2 d inRest

theorem ne_nil_of_isName {name : Text} (isName : isName name = true) : name ≠ [] := by
  rintro rfl
  cases isName

/-- There is no white space in a name. -/
theorem isBlank_eq_false_of_isName {name : Text} (isName : isName name = true) :
    ∀ c ∈ name, isBlank c = false :=
  fun c isIn => isBlank_eq_false_of_isWordPart c (isWordPart_of_isName isName c isIn)

end Text

namespace OpenWord

/-- The characters collected for a numeral so far, in reverse, unless a name is under
construction. -/
def numeral? : OpenWord → Option Text
  | nothing => some []
  | number collected => some collected
  | name _ => none

end OpenWord

namespace Token

theorem isNumeralPart_iff (c : Char) : isNumeralPart c = true ↔ c.isDigit = true ∨ c = '.' := by
  unfold isNumeralPart
  grind

theorem isNumeralPart_eq_false_of_isWordStart {c : Char} (start : Text.isWordStart c = true) :
    isNumeralPart c = false := by
  unfold isNumeralPart
  rw [Text.isDigit_eq_false_of_isWordStart start, Bool.false_or, beq_eq_false_iff_ne]
  rintro rfl
  exact absurd start (by decide)

/-! ### The machine -/

/-- The reader over a text, from a word under construction and the tokens found, the latest
first. -/
def scan (state : OpenWord × List Token) (text : Text) : Option (OpenWord × List Token) :=
  text.foldlM (fun state c => step state.1 state.2 c) state

theorem scan_nil (state : OpenWord × List Token) : scan state [] = some state :=
  rfl

theorem scan_cons (state : OpenWord × List Token) (c : Char) (rest : Text) :
    scan state (c :: rest) = (step state.1 state.2 c).bind fun next => scan next rest :=
  List.foldlM_cons

theorem scan_append (state : OpenWord × List Token) (front back : Text) :
    scan state (front ++ back) = (scan state front).bind fun next => scan next back :=
  List.foldlM_append

/-- The tokens of a text are those found at its end, and an end mark. -/
theorem ofText_eq_ok_iff (text : Text) (tokens : List Token) :
    ofText text = .ok tokens ↔ ∃ word found, scan (.nothing, []) text = some (word, found) ∧
      tokens = (word.close found).reverse ++ [.endMark] := by
  have general : ∀ index word found, ofTextFrom index word found text = .ok tokens ↔
      ∃ last all, scan (word, found) text = some (last, all) ∧
        tokens = (last.close all).reverse ++ [.endMark] := by
    induction text with
    | nil =>
      intro index word found
      rw [ofTextFrom, scan_nil, List.reverse_cons, Except.ok.injEq]
      constructor
      · rintro rfl
        exact ⟨word, found, rfl, rfl⟩
      · rintro ⟨last, all, same, rfl⟩
        cases same
        rfl
    | cons c rest ih =>
      intro index word found
      rw [ofTextFrom, scan_cons]
      cases next : step word found c with
      | none => simp
      | some state => exact ih (index + 1) state.1 state.2
  exact general 0 .nothing []

/-! ### Steps -/

/-- What a character between words does, if no expression lacks it: the tokens found are closed, and
a symbol is one more. -/
def breakAt? (closed : List Token) (c : Char) : Option (OpenWord × List Token) :=
  match ofSymbol? c with
  | some token => some (.nothing, token :: closed)
  | none => if Text.isBlank c then some (.nothing, closed) else none

variable {word : OpenWord} {collected : Text} {c : Char} (found : List Token)

theorem step_numeralPart (numeral : word.numeral? = some collected)
    (part : isNumeralPart c = true) :
    step word found c = some (.number (c :: collected), found) := by
  cases word with
  | nothing =>
    cases numeral
    rw [step, if_pos part]
  | number characters =>
    cases numeral
    rw [step, if_pos part]
  | name characters => cases numeral

theorem step_wordStart (numeral : word.numeral? = some collected)
    (start : Text.isWordStart c = true) :
    step word found c = some (.name [c], word.close found) := by
  have noPart := isNumeralPart_eq_false_of_isWordStart start
  cases word with
  | nothing => simp [step, step.between, noPart, start]
  | number characters => simp [step, step.between, noPart, start]
  | name characters => cases numeral

theorem step_wordPart (characters : Text) (part : Text.isWordPart c = true) :
    step (.name characters) found c = some (.name (c :: characters), found) := by
  rw [step, if_pos part]

theorem step_point (characters : Text) : step (.name characters) found '.' = none := by
  rfl

/-- A character that belongs to no word. -/
theorem step_separator (word : OpenWord) (noPart : Text.isWordPart c = false)
    (noPoint : c ≠ '.') : step word found c = breakAt? (word.close found) c := by
  have noStart : Text.isWordStart c = false := by
    rw [← Bool.not_eq_true] at noPart ⊢
    exact fun start => noPart (Text.isWordPart_of_isWordStart c start)
  have noNumeralPart : isNumeralPart c = false := by
    rw [← Bool.not_eq_true] at noPart ⊢
    intro part
    rcases (isNumeralPart_iff c).mp part with digit | point
    · exact noPart ((Text.isWordPart_iff c).mpr (Or.inr digit))
    · exact noPoint point
  have between : step.between word found c = breakAt? (word.close found) c := by
    rw [step.between, noStart, breakAt?]
    rfl
  cases word with
  | nothing => simp [step, noNumeralPart, between]
  | number characters => simp [step, noNumeralPart, between]
  | name characters => simp [step, noPart, noPoint, between]

/-- A symbol is a token of its own, no word and no end mark. -/
theorem ofSymbol?_eq_some {token : Token} (symbol : ofSymbol? c = some token) :
    token ≠ .endMark ∧ (∀ digits, token ≠ .number digits) ∧ ∀ name, token ≠ .name name := by
  unfold ofSymbol? at symbol
  split at symbol <;> cases symbol <;> exact ⟨nofun, nofun, nofun⟩

/-- What a character between words leaves. -/
theorem breakAt?_eq_some {closed all : List Token} {next : OpenWord}
    (broken : breakAt? closed c = some (next, all)) :
    next = .nothing ∧
      (all = closed ∨ ∃ token, ofSymbol? c = some token ∧ all = token :: closed) := by
  unfold breakAt? at broken
  split at broken
  next token symbol =>
    cases broken
    exact ⟨rfl, Or.inr ⟨token, symbol, rfl⟩⟩
  next =>
    split at broken
    · cases broken
      exact ⟨rfl, Or.inl rfl⟩
    · cases broken

/-- **All that a step can do**: continue a numeral, start a name, continue a name, or end a word. -/
theorem step_cases {found all : List Token} {next : OpenWord}
    (stepped : step word found c = some (next, all)) :
    (∃ collected, word.numeral? = some collected ∧ isNumeralPart c = true ∧
      next = .number (c :: collected) ∧ all = found) ∨
    (∃ collected, word.numeral? = some collected ∧ Text.isWordStart c = true ∧
      next = .name [c] ∧ all = word.close found) ∨
    (∃ characters, word = .name characters ∧ Text.isWordPart c = true ∧
      next = .name (c :: characters) ∧ all = found) ∨
    (Text.isWordPart c = false ∧ c ≠ '.' ∧ breakAt? (word.close found) c = some (next, all)) := by
  by_cases noPart : Text.isWordPart c = false
  · by_cases noPoint : c = '.'
    · subst noPoint
      cases numeral : word.numeral? with
      | none =>
        cases word with
        | nothing => cases numeral
        | number characters => cases numeral
        | name characters =>
          rw [step_point] at stepped
          cases stepped
      | some collected =>
        rw [step_numeralPart found numeral rfl] at stepped
        cases stepped
        exact Or.inl ⟨collected, rfl, rfl, rfl, rfl⟩
    · rw [step_separator found word noPart noPoint] at stepped
      exact Or.inr (Or.inr (Or.inr ⟨noPart, noPoint, stepped⟩))
  · rw [Bool.not_eq_false] at noPart
    cases numeral : word.numeral? with
    | none =>
      cases word with
      | nothing => cases numeral
      | number characters => cases numeral
      | name characters =>
        rw [step_wordPart found characters noPart] at stepped
        cases stepped
        exact Or.inr (Or.inr (Or.inl ⟨characters, rfl, noPart, rfl, rfl⟩))
    | some collected =>
      rcases (Text.isWordPart_iff c).mp noPart with start | digit
      · rw [step_wordStart found numeral start] at stepped
        cases stepped
        exact Or.inr (Or.inl ⟨collected, rfl, start, rfl, rfl⟩)
      · have part : isNumeralPart c = true := (isNumeralPart_iff c).mpr (Or.inl digit)
        rw [step_numeralPart found numeral part] at stepped
        cases stepped
        exact Or.inl ⟨collected, rfl, part, rfl, rfl⟩

/-! ### Tokens found -/

theorem suffix_close (word : OpenWord) (found : List Token) : found <:+ word.close found := by
  cases word with
  | nothing => exact List.suffix_rfl
  | number _ => exact List.suffix_cons _ _
  | name _ => exact List.suffix_cons _ _

/-- A step leaves the tokens, or closes the word and finds one token more at most. -/
theorem tokens_of_step {found all : List Token} {next : OpenWord}
    (stepped : step word found c = some (next, all)) :
    all = found ∨ all = word.close found ∨
      ∃ token, token ≠ .endMark ∧ all = token :: word.close found := by
  rcases step_cases stepped with ⟨_, _, _, _, rfl⟩ | ⟨_, _, _, _, rfl⟩ | ⟨_, _, _, _, rfl⟩ |
    ⟨_, _, broken⟩
  · exact Or.inl rfl
  · exact Or.inr (Or.inl rfl)
  · exact Or.inl rfl
  · obtain ⟨_, rfl | ⟨token, symbol, rfl⟩⟩ := breakAt?_eq_some broken
    · exact Or.inr (Or.inl rfl)
    · exact Or.inr (Or.inr ⟨token, (ofSymbol?_eq_some symbol).1, rfl⟩)

/-- What every step preserves a whole text preserves. -/
theorem scan_preserves (holds : OpenWord → List Token → Prop)
    (preserved : ∀ word found c next all, step word found c = some (next, all) →
      holds word found → holds next all)
    {found all : List Token} {last : OpenWord} {text : Text}
    (read : scan (word, found) text = some (last, all)) (start : holds word found) :
    holds last all := by
  induction text generalizing word found with
  | nil =>
    cases read
    exact start
  | cons c rest ih =>
    rw [scan_cons, Option.bind_eq_some_iff] at read
    obtain ⟨⟨next, middle⟩, stepped, later⟩ := read
    exact ih later (preserved _ _ _ _ _ stepped start)

/-- Tokens once found stay. -/
theorem suffix_of_scan {found all : List Token} {last : OpenWord} {text : Text}
    (read : scan (word, found) text = some (last, all)) : found <:+ all := by
  refine scan_preserves (fun _ later => found <:+ later) ?_ read List.suffix_rfl
  intro word middle c next later stepped isEnd
  rcases tokens_of_step stepped with rfl | rfl | ⟨token, _, rfl⟩
  · exact isEnd
  · exact isEnd.trans (suffix_close _ _)
  · exact (isEnd.trans (suffix_close _ _)).trans (List.suffix_cons _ _)

/-- Closing a word adds no end mark. -/
theorem endMark_notMem_close (word : OpenWord) {found : List Token} (none : .endMark ∉ found) :
    .endMark ∉ word.close found := by
  cases word with
  | nothing => exact none
  | number _ => exact List.not_mem_cons_of_ne_of_not_mem nofun none
  | name _ => exact List.not_mem_cons_of_ne_of_not_mem nofun none

/-- No text has the end mark among its tokens. -/
theorem endMark_notMem_of_scan {found all : List Token} {last : OpenWord} {text : Text}
    (read : scan (word, found) text = some (last, all)) (none : .endMark ∉ found) :
    .endMark ∉ last.close all := by
  refine endMark_notMem_close last (scan_preserves (fun _ later => .endMark ∉ later) ?_ read none)
  intro word middle c next later stepped none
  rcases tokens_of_step stepped with rfl | rfl | ⟨token, noEnd, rfl⟩
  · exact none
  · exact endMark_notMem_close word none
  · exact List.not_mem_cons_of_ne_of_not_mem noEnd.symm (endMark_notMem_close word none)

/-! ### Words -/

theorem scan_numeral (numeral : word.numeral? = some collected) {digits : Text}
    (parts : ∀ c ∈ digits, isNumeralPart c = true) (nonempty : digits ≠ []) :
    scan (word, found) digits = some (.number (digits.reverse ++ collected), found) := by
  induction digits generalizing word collected with
  | nil => exact absurd rfl nonempty
  | cons c rest ih =>
    rw [scan_cons, step_numeralPart found numeral (parts c List.mem_cons_self), Option.bind_some]
    cases rest with
    | nil => rfl
    | cons d others =>
      have later : ∀ e ∈ d :: others, isNumeralPart e = true := fun e isIn =>
        parts e (List.mem_cons_of_mem _ isIn)
      have further : scan (.number (c :: collected), found) (d :: others) =
          some (.number ((d :: others).reverse ++ c :: collected), found) :=
        ih rfl later (List.cons_ne_nil _ _)
      have order : (d :: others).reverse ++ c :: collected =
          (c :: d :: others).reverse ++ collected := by
        simp
      rw [further, order]

theorem scan_wordParts (characters : Text) {part : Text}
    (parts : ∀ c ∈ part, Text.isWordPart c = true) :
    scan (.name characters, found) part = some (.name (part.reverse ++ characters), found) := by
  induction part generalizing characters with
  | nil => rfl
  | cons c rest ih =>
    have later : ∀ d ∈ rest, Text.isWordPart d = true := fun d isIn =>
      parts d (List.mem_cons_of_mem _ isIn)
    rw [scan_cons, step_wordPart found characters (parts c List.mem_cons_self), Option.bind_some,
      ih _ later, List.reverse_cons, List.append_assoc]
    rfl

theorem scan_name (numeral : word.numeral? = some collected) {name : Text}
    (isName : Text.isName name = true) :
    scan (word, found) name = some (.name name.reverse, word.close found) := by
  cases name with
  | nil => cases isName
  | cons c rest =>
    rw [Text.isName, Bool.and_eq_true, List.all_eq_true] at isName
    rw [scan_cons, step_wordStart found numeral isName.1, Option.bind_some,
      scan_wordParts _ _ isName.2, List.reverse_cons]

/-- A word that starts with a digit is a numeral, or a numeral with a name glued to it. -/
theorem scan_digitLed (numeral : word.numeral? = some collected) {text : Text}
    (parts : ∀ c ∈ text, Text.isWordPart c = true) (noName : Text.isName text = false)
    (nonempty : text ≠ []) :
    (∃ digits, ∀ found, scan (word, found) text = some (.number digits, found)) ∨
      ∃ characters digits, ∀ found,
        scan (word, found) text = some (.name characters, .number digits :: found) := by
  have whole : ∀ c ∈ text.takeWhile Char.isDigit, isNumeralPart c = true := fun c isIn =>
    (isNumeralPart_iff c).mpr (Or.inl (List.mem_takeWhile_imp isIn))
  have split : text.takeWhile Char.isDigit ++ text.dropWhile Char.isDigit = text :=
    List.takeWhile_append_dropWhile
  have some : text.takeWhile Char.isDigit ≠ [] := by
    obtain ⟨c, rest, rfl⟩ := List.exists_cons_of_ne_nil nonempty
    have part := parts c List.mem_cons_self
    have later : rest.all Text.isWordPart = true :=
      List.all_eq_true.mpr fun d isIn => parts d (List.mem_cons_of_mem _ isIn)
    rw [Text.isName, later, Bool.and_true] at noName
    have digit : c.isDigit = true :=
      ((Text.isWordPart_iff c).mp part).resolve_left (by rw [noName]; exact Bool.false_ne_true)
    rw [List.takeWhile_cons_of_pos digit]
    exact List.cons_ne_nil _ _
  have first (found : List Token) := scan_numeral found numeral whole some
  cases letters : text.dropWhile Char.isDigit with
  | nil =>
    rw [letters, List.append_nil] at split
    rw [split] at first
    exact Or.inl ⟨_, first⟩
  | cons c rest =>
    rw [letters] at split
    have inText : ∀ d ∈ c :: rest, d ∈ text := fun d isIn =>
      split ▸ List.mem_append_right _ isIn
    have noDigit : c.isDigit = false := by
      have head := List.head_dropWhile_not Char.isDigit (l := text) (by simp [letters])
      simpa [letters] using head
    have start : Text.isWordStart c = true :=
      ((Text.isWordPart_iff c).mp (parts c (inText c List.mem_cons_self))).resolve_right
        (by rw [noDigit]; exact Bool.false_ne_true)
    have isName : Text.isName (c :: rest) = true := by
      rw [Text.isName, start, Bool.true_and, List.all_eq_true]
      exact fun d isIn => parts d (inText d (List.mem_cons_of_mem _ isIn))
    refine Or.inr ⟨(c :: rest).reverse,
      ((text.takeWhile Char.isDigit).reverse ++ collected).reverse, fun found => ?_⟩
    conv_lhs => rw [← split]
    rw [scan_append, first, Option.bind_some]
    exact scan_name found rfl isName

/-! ### Names in a text -/

/-- Behind a character that belongs to no word there is no word, or a numeral that ends with a
point. -/
theorem scan_concat {found all : List Token} {last : OpenWord} {text : Text}
    (read : scan (word, found) (text ++ [c]) = some (last, all))
    (noPart : Text.isWordPart c = false) :
    c ≠ '.' ∧ last = .nothing ∨ c = '.' ∧ ∃ collected, last = .number collected := by
  rw [scan_append, Option.bind_eq_some_iff] at read
  obtain ⟨⟨next, middle⟩, _, stepped⟩ := read
  rw [scan_cons, Option.bind_eq_some_iff] at stepped
  obtain ⟨⟨other, tokens⟩, stepped, same⟩ := stepped
  cases same
  rcases step_cases stepped with ⟨collected, _, part, rfl, rfl⟩ | ⟨_, _, start, _⟩ |
    ⟨_, _, part, _⟩ | ⟨_, noPoint, broken⟩
  · refine Or.inr ⟨((isNumeralPart_iff c).mp part).resolve_left fun digit => ?_, _, rfl⟩
    rw [(Text.isWordPart_iff c).mpr (Or.inr digit)] at noPart
    cases noPart
  · rw [Text.isWordPart_of_isWordStart c start] at noPart
    cases noPart
  · rw [part] at noPart
    cases noPart
  · exact Or.inl ⟨noPoint, (breakAt?_eq_some broken).1⟩

/-- Before a word that nothing in front of it continues, there is no word, or a numeral that ends
with a point. -/
theorem scan_front {all : List Token} {last : OpenWord} {front : Text}
    (read : scan (.nothing, []) front = some (last, all))
    (before : ∀ c ∈ front.getLast?, Text.isWordPart c = false) :
    front.getLast? ≠ some '.' ∧ last = .nothing ∨
      front.getLast? = some '.' ∧ ∃ collected, last = .number collected := by
  rcases List.eq_nil_or_concat front with rfl | ⟨text, c, rfl⟩
  · cases read
    exact Or.inl ⟨nofun, rfl⟩
  · rw [List.concat_eq_append, List.getLast?_concat] at *
    rw [ne_eq, Option.some.injEq]
    exact scan_concat read (before c rfl)

/-- A name directly behind a numeral, among tokens with the latest first. -/
def Glued (found : List Token) : Prop :=
  ∃ name digits, [.name name, .number digits] <:+: found

theorem Glued.of_suffix {found all : List Token} (glued : Glued found) (isEnd : found <:+ all) :
    Glued all := by
  obtain ⟨name, digits, isIn⟩ := glued
  exact ⟨name, digits, isIn.trans isEnd.isInfix⟩

end Token

namespace Text

/-- A name between two texts that do not continue it. -/
structure StandsAlone (front name back : Text) : Prop where
  isName : isName name = true
  before : ∀ c ∈ front.getLast?, isWordPart c = false
  behind : ∀ c ∈ back.head?, isWordPart c = false

end Text

namespace Token

theorem scan_around {front name back : Text} {last : OpenWord} {all : List Token}
    (alone : Text.StandsAlone front name back)
    (read : scan (.nothing, []) (front ++ (name ++ back)) = some (last, all)) :
    .name name ∈ last.close all ∧ back.head? ≠ some '.' ∧
      (front.getLast? = some '.' → Glued (last.close all)) := by
  rw [scan_append, Option.bind_eq_some_iff] at read
  obtain ⟨⟨word, found⟩, readFront, readRest⟩ := read
  have clear := scan_front readFront alone.before
  obtain ⟨collected, numeral⟩ : ∃ collected, word.numeral? = some collected := by
    rcases clear with ⟨_, rfl⟩ | ⟨_, collected, rfl⟩
    · exact ⟨[], rfl⟩
    · exact ⟨collected, rfl⟩
  rw [scan_append, scan_name found numeral alone.isName, Option.bind_some] at readRest
  have closed : .name name :: word.close found <:+ last.close all ∧ back.head? ≠ some '.' := by
    cases back with
    | nil =>
      cases readRest
      rw [OpenWord.close, List.reverse_reverse]
      exact ⟨List.suffix_rfl, nofun⟩
    | cons c rest =>
      rw [scan_cons, Option.bind_eq_some_iff] at readRest
      obtain ⟨⟨next, middle⟩, stepped, later⟩ := readRest
      have noPoint : c ≠ '.' := by
        rintro rfl
        cases stepped
      rw [step_separator _ _ (alone.behind c rfl) noPoint, OpenWord.close, List.reverse_reverse]
        at stepped
      refine ⟨List.IsSuffix.trans ?_ ((suffix_of_scan later).trans (suffix_close _ _)),
        fun point => noPoint (Option.some.inj point)⟩
      obtain ⟨_, rfl | ⟨token, _, rfl⟩⟩ := breakAt?_eq_some stepped
      · exact List.suffix_rfl
      · exact List.suffix_cons _ _
  refine ⟨closed.1.subset List.mem_cons_self, closed.2, fun point => ?_⟩
  rcases clear with ⟨noPoint, _⟩ | ⟨_, collected, rfl⟩
  · exact absurd point noPoint
  · exact Glued.of_suffix ⟨name, collected.reverse, [], found, rfl⟩ closed.1

/-! ### Whole texts -/

/-- The text has these tokens in front of the end mark. -/
def Reads (text : Text) (body : List Token) : Prop :=
  ofText text = .ok (body ++ [.endMark]) ∧ .endMark ∉ body

theorem reads_iff (text : Text) (body : List Token) :
    Reads text body ↔ ∃ word found, scan (.nothing, []) text = some (word, found) ∧
      body = (word.close found).reverse := by
  unfold Reads
  rw [ofText_eq_ok_iff]
  constructor
  · rintro ⟨⟨word, found, read, same⟩, _⟩
    exact ⟨word, found, read, List.append_cancel_right same⟩
  · rintro ⟨word, found, read, rfl⟩
    refine ⟨⟨word, found, read, rfl⟩, ?_⟩
    rw [List.mem_reverse]
    exact endMark_notMem_of_scan read List.not_mem_nil

/-- Whatever tokens a text has, they are of this kind. -/
theorem exists_reads {text : Text} {tokens : List Token} (read : ofText text = .ok tokens) :
    ∃ body, tokens = body ++ [.endMark] ∧ Reads text body := by
  obtain ⟨word, found, scanned, rfl⟩ := (ofText_eq_ok_iff text tokens).mp read
  exact ⟨_, rfl, (reads_iff text _).mpr ⟨word, found, scanned, rfl⟩⟩

/-- A text that has tokens has no percent sign. -/
theorem percent_notMem_of_scan {found : List Token} {state : OpenWord × List Token} {text : Text}
    (read : scan (word, found) text = some state) : '%' ∉ text := by
  induction text generalizing word found with
  | nil => exact List.not_mem_nil
  | cons c rest ih =>
    rw [scan_cons, Option.bind_eq_some_iff] at read
    obtain ⟨⟨next, middle⟩, stepped, later⟩ := read
    refine List.not_mem_cons_of_ne_of_not_mem ?_ (ih later)
    rintro rfl
    rcases step_cases stepped with ⟨_, _, part, _⟩ | ⟨_, _, start, _⟩ | ⟨_, _, part, _⟩ |
      ⟨_, _, broken⟩
    · exact absurd part (by decide)
    · exact absurd start (by decide)
    · exact absurd part (by decide)
    · cases broken

/-- A name directly behind a numeral, among tokens in their order. -/
def GluedIn (tokens : List Token) : Prop :=
  ∃ digits name, [.number digits, .name name] <:+: tokens

theorem glued_iff (found : List Token) : Glued found ↔ GluedIn found.reverse := by
  unfold Glued GluedIn
  constructor
  · rintro ⟨name, digits, isIn⟩
    exact ⟨digits, name, List.reverse_infix.mpr isIn⟩
  · rintro ⟨digits, name, isIn⟩
    exact ⟨name, digits, List.reverse_infix.mp isIn⟩

/-- **A name standing alone in a text is one of its tokens**; no point stands behind it, and with a
point in front of it it is glued to a numeral. -/
theorem Reads.around {front name back : Text} {body : List Token}
    (read : Reads (front ++ (name ++ back)) body) (alone : Text.StandsAlone front name back) :
    .name name ∈ body ∧ back.head? ≠ some '.' ∧ (front.getLast? = some '.' → GluedIn body) := by
  obtain ⟨word, found, scanned, rfl⟩ := (reads_iff _ _).mp read
  rw [List.mem_reverse, ← glued_iff]
  exact scan_around alone scanned

end Token

end Worksheet

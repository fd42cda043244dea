/-
**How a text falls into tokens.**

The tokens of a text can be said without the reader: white space stands between tokens, a symbol is
a token of its own, digits and points are one numeral as far as they go, and a name goes as far as
letters, digits and underscores do. A text falls into tokens unless it has a character that no
expression is written with, or a point directly behind a name.

* `Token.Cut` is a text with its tokens;
* `Token.exists_cut`: which texts fall into tokens;
* `Token.reads_iff_cut`: the reader finds these tokens.
-/

import Worksheet.Proofs.Expr.Scan
import Worksheet.Proofs.Text.WhiteSpace

namespace Worksheet

namespace Text

/-! ### Texts that expressions are written with -/

/-- A character that expressions are written with. -/
def IsWritable (c : Char) : Prop :=
  c.isDigit = true ∨ c.isAlpha = true ∨ c ∈ "_.+-*/(),".toList ∨ isBlank c = true

/-- No point stands directly behind a name. -/
def PointsApart (text : Text) : Prop :=
  ∀ front name back, text = front ++ (name ++ '.' :: back) → isName name = false

theorem PointsApart.of_suffix {front back : Text} (apart : PointsApart (front ++ back)) :
    PointsApart back := by
  intro before name behind split
  refine apart (front ++ before) name behind ?_
  rw [split, List.append_assoc]

/-- Behind a name there is no point. -/
theorem PointsApart.ne_point {name back : Text} (apart : PointsApart (name ++ back))
    (isName : isName name = true) : ∀ c ∈ back.head?, c ≠ '.' := by
  rintro c isHead rfl
  obtain ⟨others, rfl⟩ := List.head?_eq_some_iff.mp isHead
  have noName := apart [] name others rfl
  rw [isName] at noName
  cases noName

end Text

namespace Token

/-! ### Symbols and white space -/

/-- The characters that are tokens by themselves. -/
def symbols : Text :=
  "+-*/(),".toList

theorem isSome_ofSymbol?_iff (c : Char) : (ofSymbol? c).isSome = true ↔ c ∈ symbols := by
  constructor
  · intro isSymbol
    unfold ofSymbol? at isSymbol
    split at isSymbol <;> first | decide | cases isSymbol
  · revert c
    exact List.all_eq_true.mp (by decide)

theorem text_of_ofSymbol? {c : Char} {token : Token} (isSymbol : ofSymbol? c = some token) :
    token.text = [c] := by
  unfold ofSymbol? at isSymbol
  split at isSymbol <;> cases isSymbol <;> rfl

theorem mem_symbols {c : Char} {token : Token} (isSymbol : ofSymbol? c = some token) :
    c ∈ symbols := by
  rw [← isSome_ofSymbol?_iff, isSymbol]
  rfl

/-- A symbol belongs to no word, and is no white space. -/
theorem class_of_mem_symbols : ∀ c ∈ symbols,
    Text.isWordPart c = false ∧ isNumeralPart c = false ∧ Text.isBlank c = false :=
  List.forall_iff_forall_mem.mp (by decide)

/-- White space belongs to no word, and is no symbol. -/
theorem class_of_isBlank {c : Char} (isBlank : Text.isBlank c = true) :
    Text.isWordPart c = false ∧ isNumeralPart c = false ∧ ofSymbol? c = none := by
  refine ⟨Text.isWordPart_eq_false_of_isBlank isBlank,
    Text.isNumeralPart_eq_false_of_isBlank isBlank, ?_⟩
  rw [← Option.not_isSome_iff_eq_none, isSome_ofSymbol?_iff]
  intro isIn
  rw [(class_of_mem_symbols c isIn).2.2] at isBlank
  cases isBlank

/-- White space is passed over between words. -/
theorem step_blank (found : List Token) {c : Char} (isBlank : Text.isBlank c = true) :
    step .nothing found c = some (.nothing, found) := by
  obtain ⟨noPart, noNumeralPart, noSymbol⟩ := class_of_isBlank isBlank
  have noPoint : c ≠ '.' := by
    rintro rfl
    cases noNumeralPart
  rw [step_separator found .nothing noPart noPoint, breakAt?, noSymbol]
  dsimp only
  rw [if_pos isBlank]
  rfl

/-- A symbol is one token more. -/
theorem step_symbol (found : List Token) {c : Char} {token : Token}
    (isSymbol : ofSymbol? c = some token) :
    step .nothing found c = some (.nothing, token :: found) := by
  obtain ⟨noPart, noNumeralPart, -⟩ := class_of_mem_symbols c (mem_symbols isSymbol)
  have noPoint : c ≠ '.' := by
    rintro rfl
    cases noNumeralPart
  rw [step_separator found .nothing noPart noPoint, breakAt?, isSymbol]
  rfl

/-! ### Tokens without the reader -/

/-- The text is cut into these tokens. -/
inductive Cut : Text → List Token → Prop
  | nil : Cut [] []
  | blank {c : Char} {rest : Text} {tokens : List Token} (isBlank : Text.isBlank c = true)
      (others : Cut rest tokens) : Cut (c :: rest) tokens
  | symbol {c : Char} {token : Token} {rest : Text} {tokens : List Token}
      (isSymbol : ofSymbol? c = some token) (others : Cut rest tokens) :
      Cut (c :: rest) (token :: tokens)
  | number {digits rest : Text} {tokens : List Token} (nonempty : digits ≠ [])
      (parts : ∀ c ∈ digits, isNumeralPart c = true)
      (border : ∀ c ∈ rest.head?, isNumeralPart c = false) (others : Cut rest tokens) :
      Cut (digits ++ rest) (.number digits :: tokens)
  | name {word rest : Text} {tokens : List Token} (isName : Text.isName word = true)
      (border : ∀ c ∈ rest.head?, Text.isWordPart c = false ∧ c ≠ '.') (others : Cut rest tokens) :
      Cut (word ++ rest) (.name word :: tokens)

/-- A text that expressions are written with, without a point directly behind a name, is cut into
tokens. -/
theorem exists_cut {text : Text} (writable : ∀ c ∈ text, Text.IsWritable c)
    (apart : Text.PointsApart text) : ∃ body, Cut text body := by
  match text with
  | [] => exact ⟨[], .nil⟩
  | c :: rest =>
    by_cases start : Text.isWordStart c = true
    · obtain ⟨word, behind, split, nonempty, parts, border, shorter⟩ :=
        Text.exists_run (Text.isWordPart_of_isWordStart c start) rest
      have isName : Text.isName word = true := by
        obtain ⟨d, others, rfl⟩ := List.exists_cons_of_ne_nil nonempty
        cases split
        rw [Text.isName, start, Bool.true_and, List.all_eq_true]
        exact (List.forall_mem_cons.mp parts).2
      rw [split] at writable apart ⊢
      obtain ⟨body, cut⟩ := exists_cut (List.forall_mem_append.mp writable).2 apart.of_suffix
      have noPoint := apart.ne_point isName
      exact ⟨_, .name isName (fun d isHead => ⟨border d isHead, noPoint d isHead⟩) cut⟩
    · by_cases part : isNumeralPart c = true
      · obtain ⟨digits, behind, split, nonempty, parts, border, shorter⟩ :=
          Text.exists_run part rest
        rw [split] at writable apart ⊢
        obtain ⟨body, cut⟩ := exists_cut (List.forall_mem_append.mp writable).2 apart.of_suffix
        exact ⟨_, .number nonempty parts border cut⟩
      · rw [← List.singleton_append] at apart
        rw [List.forall_mem_cons] at writable
        obtain ⟨body, cut⟩ := exists_cut writable.2 apart.of_suffix
        rcases writable.1 with digit | letter | symbol | blank
        · exact absurd ((isNumeralPart_iff c).mpr (Or.inl digit)) part
        · refine absurd ?_ start
          rw [Text.isWordStart, letter, Bool.true_or]
        · have isSymbol : ∀ d ∈ "_.+-*/(),".toList, Text.isWordStart d = true ∨
              isNumeralPart d = true ∨ d ∈ symbols := List.forall_iff_forall_mem.mp (by decide)
          have isIn := ((isSymbol c symbol).resolve_left start).resolve_left part
          obtain ⟨token, isToken⟩ := Option.isSome_iff_exists.mp ((isSome_ofSymbol?_iff c).mpr isIn)
          exact ⟨_, .symbol isToken cut⟩
        · exact ⟨_, .blank blank cut⟩
termination_by text.length
decreasing_by
  · exact shorter
  · exact shorter
  · exact Nat.lt_succ_self rest.length

/-! ### The reader finds them -/

/-- A character that does not continue a numeral is read as behind white space. -/
theorem step_behind_number (collected : Text) (found : List Token) {c : Char}
    (noPart : isNumeralPart c = false) :
    step (.number collected) found c =
      step .nothing (OpenWord.close (.number collected) found) c := by
  have numeral : OpenWord.numeral? (.number collected) = some collected := rfl
  have nothing : OpenWord.nothing.numeral? = some [] := rfl
  by_cases start : Text.isWordStart c = true
  · rw [step_wordStart found numeral start, step_wordStart _ nothing start]
    rfl
  · have noWordPart : Text.isWordPart c = false := by
      rw [← Bool.not_eq_true, Text.isWordPart_iff]
      rintro (isStart | isDigit)
      · exact start isStart
      · rw [(isNumeralPart_iff c).mpr (Or.inl isDigit)] at noPart
        cases noPart
    have noPoint : c ≠ '.' := by
      rintro rfl
      cases noPart
    rw [step_separator found _ noWordPart noPoint, step_separator _ _ noWordPart noPoint]
    rfl

/-- A character that does not continue a name is read as behind white space, unless it is a
point. -/
theorem step_behind_name (collected : Text) (found : List Token) {c : Char}
    (border : Text.isWordPart c = false ∧ c ≠ '.') :
    step (.name collected) found c =
      step .nothing (OpenWord.close (.name collected) found) c := by
  rw [step_separator found _ border.1 border.2, step_separator _ _ border.1 border.2]
  rfl

/-- What the reader finds in a text and the word that it ends with, the latest token first. -/
def tokensFrom (state : OpenWord × List Token) (text : Text) : Option (List Token) :=
  (scan state text).map fun last => last.1.close last.2

/-- A word that ends is closed. -/
theorem tokensFrom_close (word : OpenWord) (found : List Token) {rest : Text}
    (ends : ∀ c ∈ rest.head?, step word found c = step .nothing (word.close found) c) :
    tokensFrom (word, found) rest = tokensFrom (.nothing, word.close found) rest := by
  unfold tokensFrom
  cases rest with
  | nil => rfl
  | cons c others => rw [scan_cons, scan_cons, ends c rfl]

/-- What a text is cut into is read. -/
theorem tokensFrom_of_cut {text : Text} {body : List Token} (cut : Cut text body)
    (found : List Token) :
    tokensFrom (.nothing, found) text = some (body.reverse ++ found) := by
  have nothing : OpenWord.nothing.numeral? = some [] := rfl
  induction cut generalizing found with
  | nil => rfl
  | @blank c rest tokens isBlank others ih =>
    rw [← ih found, tokensFrom, scan_cons, step_blank found isBlank]
    rfl
  | @symbol c token rest tokens isSymbol others ih =>
    rw [List.reverse_cons, List.append_assoc, List.singleton_append, ← ih (token :: found),
      tokensFrom, scan_cons, step_symbol found isSymbol]
    rfl
  | @number digits rest tokens nonempty parts border others ih =>
    have read := scan_numeral found nothing parts nonempty
    rw [List.append_nil] at read
    have closed := tokensFrom_close (.number digits.reverse) found fun c isHead =>
      step_behind_number _ _ (border c isHead)
    rw [OpenWord.close, List.reverse_reverse] at closed
    rw [List.reverse_cons, List.append_assoc, List.singleton_append, ← ih (.number digits :: found),
      ← closed, tokensFrom, scan_append, read]
    rfl
  | @name word rest tokens isName border others ih =>
    have read := scan_name found nothing isName
    have closed := tokensFrom_close (.name word.reverse) found fun c isHead =>
      step_behind_name _ _ (border c isHead)
    rw [OpenWord.close, List.reverse_reverse] at closed
    rw [List.reverse_cons, List.append_assoc, List.singleton_append, ← ih (.name word :: found),
      ← closed, tokensFrom, scan_append, read]
    rfl

theorem reads_iff_tokensFrom (text : Text) (body : List Token) :
    Reads text body ↔ tokensFrom (.nothing, []) text = some body.reverse := by
  rw [reads_iff, tokensFrom, Option.map_eq_some_iff]
  constructor
  · rintro ⟨word, found, read, rfl⟩
    exact ⟨(word, found), read, (List.reverse_reverse _).symm⟩
  · rintro ⟨⟨word, found⟩, read, same⟩
    refine ⟨word, found, read, ?_⟩
    rw [same, List.reverse_reverse]

/-- A character that is read is one that expressions are written with. -/
theorem isWritable_of_step {word next : OpenWord} {found all : List Token} {c : Char}
    (stepped : step word found c = some (next, all)) : Text.IsWritable c := by
  have wordPart (part : Text.isWordPart c = true) : Text.IsWritable c := by
    unfold Text.isWordPart Char.isAlphanum at part
    rw [Bool.or_eq_true, Bool.or_eq_true, beq_iff_eq] at part
    rcases part with (letter | digit) | rfl
    · exact Or.inr (Or.inl letter)
    · exact Or.inl digit
    · exact Or.inr (Or.inr (Or.inl (by decide)))
  rcases step_cases stepped with ⟨_, _, part, _⟩ | ⟨_, _, start, _⟩ | ⟨_, _, part, _⟩ |
    ⟨_, _, broken⟩
  · rcases (isNumeralPart_iff c).mp part with digit | rfl
    · exact Or.inl digit
    · exact Or.inr (Or.inr (Or.inl (by decide)))
  · exact wordPart (Text.isWordPart_of_isWordStart c start)
  · exact wordPart part
  · unfold breakAt? at broken
    split at broken
    next token isSymbol =>
      have among : ∀ d ∈ symbols, d ∈ "_.+-*/(),".toList :=
        List.forall_iff_forall_mem.mp (by decide)
      exact Or.inr (Or.inr (Or.inl (among c (mem_symbols isSymbol))))
    next =>
      split at broken
      next blank => exact Or.inr (Or.inr (Or.inr blank))
      next => cases broken

theorem isWritable_of_scan {state last : OpenWord × List Token} {text : Text}
    (read : scan state text = some last) : ∀ c ∈ text, Text.IsWritable c := by
  induction text generalizing state with
  | nil => exact List.forall_mem_nil _
  | cons c rest ih =>
    rw [scan_cons, Option.bind_eq_some_iff] at read
    obtain ⟨next, stepped, later⟩ := read
    exact List.forall_mem_cons.mpr ⟨isWritable_of_step stepped, ih later⟩

/-- Behind a name a name is under construction, whatever stands in front of it. -/
theorem exists_name_of_scan {word next : OpenWord} {found all : List Token} {name : Text}
    (isName : Text.isName name = true) (read : scan (word, found) name = some (next, all)) :
    ∃ collected, next = .name collected := by
  cases numeral : word.numeral? with
  | some collected =>
    rw [scan_name found numeral isName] at read
    cases read
    exact ⟨_, rfl⟩
  | none =>
    cases word with
    | nothing => cases numeral
    | number characters => cases numeral
    | name characters =>
      rw [scan_wordParts found characters (Text.isWordPart_of_isName isName)] at read
      cases read
      exact ⟨_, rfl⟩

theorem pointsApart_of_scan {state last : OpenWord × List Token} {text : Text}
    (read : scan state text = some last) : Text.PointsApart text := by
  rintro front name back rfl
  rw [scan_append, Option.bind_eq_some_iff] at read
  obtain ⟨behindFront, -, read⟩ := read
  rw [scan_append, Option.bind_eq_some_iff] at read
  obtain ⟨behindName, readName, read⟩ := read
  rw [← Bool.not_eq_true]
  intro isName
  obtain ⟨collected, isOpen⟩ := exists_name_of_scan isName readName
  rw [scan_cons, isOpen, step_point] at read
  cases read

/-- **The reader finds the tokens that a text is cut into.** -/
theorem reads_iff_cut (text : Text) (body : List Token) : Reads text body ↔ Cut text body := by
  have ofCut {other : List Token} (cut : Cut text other) : Reads text other := by
    rw [reads_iff_tokensFrom, tokensFrom_of_cut cut [], List.append_nil]
  refine ⟨fun reads => ?_, ofCut⟩
  obtain ⟨word, found, read, -⟩ := (reads_iff _ _).mp reads
  obtain ⟨other, cut⟩ := exists_cut (isWritable_of_scan read) (pointsApart_of_scan read)
  have same := (ofCut cut).1
  rw [reads.1, Except.ok.injEq] at same
  rwa [List.append_cancel_right same]

end Token

end Worksheet

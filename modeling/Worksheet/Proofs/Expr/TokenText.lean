/-
**The tokens in their text.**

Each token stands in the text that it was read from, and no longer numeral or name stands there.
Nothing but white space is lost, so that the tokens can be spelled with spaces between them and are
read again. If a character is refused, then only what stands up to it counts.

* `Cut.exists_place`: where a token stands, and that nothing around it belongs to it;
* `Cut.flatMap_text` and `Cut.spaced`: the text of the tokens, and what is read from it;
* `ofText_eq_error_iff`: which character is refused;
* `ofText_exact`: all of it about the reader of a text.
-/

import Worksheet.Proofs.Expr.MaximalMunch

namespace Worksheet

namespace Text

/-- A part of a text that has a property, and that is in no longer part of the text that has it. -/
def Maximal (holds : Text → Prop) (front part back : Text) : Prop :=
  holds part ∧ ∀ before behind, before <:+ front → behind <+: back →
    holds (before ++ (part ++ behind)) → before = [] ∧ behind = []

/-- What ends a text in two pieces ends the second one, or goes over the border between them. -/
theorem suffix_cases {piece front before : Text} (isEnd : before <:+ piece ++ front) :
    before <:+ front ∨ ∃ part, part ≠ [] ∧ part <:+ piece ∧ before = part ++ front := by
  rcases List.suffix_or_suffix_of_suffix isEnd (List.suffix_append piece front) with inner | outer
  · exact Or.inl inner
  · obtain ⟨part, rfl⟩ := outer
    by_cases nonempty : part = []
    · subst nonempty
      exact Or.inl List.suffix_rfl
    · obtain ⟨earlier, same⟩ := isEnd
      rw [← List.append_assoc] at same
      exact Or.inr ⟨part, nonempty, ⟨earlier, List.append_cancel_right same⟩, rfl⟩

end Text

namespace Token

/-! ### Where tokens stand -/

/-- Nothing around the token belongs to it: a numeral is a whole run of digits and points outside of
words, and a name is in no longer name. -/
def IsWhole (front : Text) (token : Token) (back : Text) : Prop :=
  match token with
  | number digits =>
    Text.Maximal (fun run => run ≠ [] ∧ ∀ c ∈ run, isNumeralPart c = true) front digits back ∧
      ∀ c ∈ front.getLast?, Text.isWordPart c = false
  | name word => Text.Maximal (fun run => Text.isName run = true) front word back
  | _ => True

/-- No word goes over the border between two texts. -/
structure Joint (front back : Text) : Prop where
  noName : ∀ part next, part <:+ front → part ≠ [] → next <+: back → next ≠ [] →
    Text.isName (part ++ next) = false
  noNumeral : ∀ c ∈ front.getLast?, ∀ d ∈ back.head?, isNumeralPart d = true →
    Text.isWordPart c = false ∧ isNumeralPart c = false

/-- A character outside of words is a border. -/
theorem Joint.separator {c : Char} (noPart : Text.isWordPart c = false)
    (noNumeralPart : isNumeralPart c = false) (back : Text) : Joint [c] back := by
  constructor
  · intro part next isEnd nonempty isStart goesOn
    obtain rfl : part = [c] := by
      rcases List.suffix_cons_iff.mp isEnd with rfl | inNil
      · rfl
      · exact absurd (List.suffix_nil.mp inNil) nonempty
    rw [← Bool.not_eq_true]
    intro isName
    rw [Text.isWordPart_of_isName isName c List.mem_cons_self] at noPart
    cases noPart
  · rintro d ⟨⟩ e isHead isPart
    exact ⟨noPart, noNumeralPart⟩

/-- No word goes on behind a numeral that is over. -/
theorem Joint.number {digits back : Text} (parts : ∀ c ∈ digits, isNumeralPart c = true)
    (border : ∀ c ∈ back.head?, isNumeralPart c = false) : Joint digits back := by
  constructor
  · intro part next isEnd nonempty isStart goesOn
    obtain ⟨c, others, rfl⟩ := List.exists_cons_of_ne_nil nonempty
    have isPart := parts c (isEnd.subset List.mem_cons_self)
    rw [List.cons_append, Text.isName, Bool.and_eq_false_iff]
    left
    rw [← Bool.not_eq_true]
    intro start
    rw [isNumeralPart_eq_false_of_isWordStart start] at isPart
    cases isPart
  · intro c isLast d isHead isPart
    rw [border d isHead] at isPart
    cases isPart

/-- No word goes on behind a name that is over. -/
theorem Joint.name {word back : Text}
    (border : ∀ c ∈ back.head?, Text.isWordPart c = false ∧ c ≠ '.') : Joint word back := by
  constructor
  · intro part next isEnd nonempty isStart goesOn
    obtain ⟨c, others, rfl⟩ := List.exists_cons_of_ne_nil goesOn
    have isHead : c ∈ back.head? := by
      obtain ⟨rest, rfl⟩ := isStart
      rfl
    rw [← Bool.not_eq_true]
    intro isName
    have part := Text.isWordPart_of_isName isName c (by simp)
    rw [(border c isHead).1] at part
    cases part
  · intro c isLast d isHead isPart
    obtain ⟨noPart, noPoint⟩ := border d isHead
    rcases (isNumeralPart_iff d).mp isPart with digit | point
    · rw [Text.isWordPart_of_isDigit d digit] at noPart
      cases noPart
    · exact absurd point noPoint

/-- What stands in front of a text that no word goes into does not belong to its tokens. -/
theorem IsWhole.extend {piece front back : Text} {token : Token}
    (whole : IsWhole front token back) (joint : Joint piece (front ++ (token.text ++ back))) :
    IsWhole (piece ++ front) token back := by
  cases token with
  | number digits =>
    obtain ⟨⟨⟨nonempty, parts⟩, longest⟩, outside⟩ := whole
    obtain ⟨d, others, rfl⟩ := List.exists_cons_of_ne_nil nonempty
    have isPart := parts d List.mem_cons_self
    refine ⟨⟨⟨nonempty, parts⟩, fun before behind isEnd isStart longer => ?_⟩, ?_⟩
    · rcases Text.suffix_cases isEnd with inner | ⟨part, isPiece, inPiece, rfl⟩
      · exact longest before behind inner isStart longer
      · rw [List.append_assoc, List.forall_mem_append] at longer
        -- All of the text in front is in the run, so there is none.
        obtain ⟨rfl, -⟩ := longest front behind List.suffix_rfl isStart
          ⟨List.append_ne_nil_of_right_ne_nil _ (List.cons_ne_nil _ _), longer.2.2⟩
        obtain ⟨earlier, rfl⟩ := inPiece
        have isLast : part.getLast isPiece ∈ (earlier ++ part).getLast? := by
          rw [List.getLast?_append_of_ne_nil _ isPiece, List.getLast?_eq_some_getLast isPiece]
          rfl
        have noPart := (joint.noNumeral _ isLast d rfl isPart).2
        rw [longer.2.1 _ (List.getLast_mem isPiece)] at noPart
        cases noPart
    · cases front with
      | nil =>
        rw [List.append_nil]
        exact fun c isLast => (joint.noNumeral c isLast d rfl isPart).1
      | cons c rest =>
        rwa [List.getLast?_append_of_ne_nil _ (List.cons_ne_nil _ _)]
  | name word =>
    obtain ⟨isName, longest⟩ := whole
    refine ⟨isName, fun before behind isEnd isStart longer => ?_⟩
    rcases Text.suffix_cases isEnd with inner | ⟨part, isPiece, inPiece, rfl⟩
    · exact longest before behind inner isStart longer
    · have nonempty := Text.ne_nil_of_isName isName
      have noName := joint.noName part (front ++ (word ++ behind)) inPiece isPiece
        (by simpa [text] using isStart) (by simp [nonempty])
      rw [← List.append_assoc, longer] at noName
      cases noName
  | openBracket => trivial
  | closeBracket => trivial
  | comma => trivial
  | operator op => trivial
  | endMark => trivial

theorem IsWhole.number {digits back : Text} (nonempty : digits ≠ [])
    (parts : ∀ c ∈ digits, isNumeralPart c = true)
    (border : ∀ c ∈ back.head?, isNumeralPart c = false) : IsWhole [] (.number digits) back := by
  refine ⟨⟨⟨nonempty, parts⟩, fun before behind isEnd isStart longer => ?_⟩, nofun⟩
  refine ⟨List.suffix_nil.mp isEnd, ?_⟩
  by_contra goesOn
  obtain ⟨c, others, rfl⟩ := List.exists_cons_of_ne_nil goesOn
  obtain ⟨rest, rfl⟩ := isStart
  have noPart := border c rfl
  rw [longer.2 c (by simp)] at noPart
  cases noPart

theorem IsWhole.name {word back : Text} (isName : Text.isName word = true)
    (border : ∀ c ∈ back.head?, Text.isWordPart c = false ∧ c ≠ '.') :
    IsWhole [] (.name word) back := by
  refine ⟨isName, fun before behind isEnd isStart longer => ?_⟩
  refine ⟨List.suffix_nil.mp isEnd, ?_⟩
  by_contra goesOn
  obtain ⟨c, others, rfl⟩ := List.exists_cons_of_ne_nil goesOn
  obtain ⟨rest, rfl⟩ := isStart
  have noPart := (border c rfl).1
  rw [Text.isWordPart_of_isName longer c (by simp)] at noPart
  cases noPart

/-- **Each token stands in the text**, between what the tokens before it are cut from and what those
behind it are cut from, and nothing around it belongs to it. -/
theorem Cut.exists_place {text : Text} {body before behind : List Token} {token : Token}
    (cut : Cut text body) (split : body = before ++ token :: behind) :
    ∃ front back, text = front ++ (token.text ++ back) ∧ Cut front before ∧ Cut back behind ∧
      IsWhole front token back := by
  induction cut generalizing before with
  | nil => simp at split
  | @blank c rest tokens isBlank others ih =>
    obtain ⟨front, back, rfl, cutFront, cutBack, whole⟩ := ih split
    obtain ⟨noPart, noNumeralPart, -⟩ := class_of_isBlank isBlank
    exact ⟨c :: front, back, rfl, .blank isBlank cutFront, cutBack,
      whole.extend (.separator noPart noNumeralPart _)⟩
  | @symbol c first rest tokens isSymbol others ih =>
    have text := text_of_ofSymbol? isSymbol
    obtain ⟨-, noNumber, noName⟩ := ofSymbol?_eq_some isSymbol
    cases before with
    | nil =>
      cases split
      refine ⟨[], rest, by rw [text]; rfl, .nil, others, ?_⟩
      cases token with
      | number digits => exact absurd rfl (noNumber digits)
      | name word => exact absurd rfl (noName word)
      | _ => trivial
    | cons other before =>
      cases split
      obtain ⟨front, back, rfl, cutFront, cutBack, whole⟩ := ih rfl
      obtain ⟨noPart, noNumeralPart, -⟩ := class_of_mem_symbols c (mem_symbols isSymbol)
      exact ⟨c :: front, back, rfl, .symbol isSymbol cutFront, cutBack,
        whole.extend (.separator noPart noNumeralPart _)⟩
  | @number digits rest tokens nonempty parts border others ih =>
    cases before with
    | nil =>
      cases split
      exact ⟨[], rest, rfl, .nil, others, .number nonempty parts border⟩
    | cons other before =>
      cases split
      obtain ⟨front, back, rfl, cutFront, cutBack, whole⟩ := ih rfl
      refine ⟨digits ++ front, back, (List.append_assoc _ _ _).symm, ?_, cutBack,
        whole.extend (.number parts border)⟩
      exact .number nonempty parts (fun c isHead => border c (by simp_all)) cutFront
  | @name word rest tokens isName border others ih =>
    cases before with
    | nil =>
      cases split
      exact ⟨[], rest, rfl, .nil, others, .name isName border⟩
    | cons other before =>
      cases split
      obtain ⟨front, back, rfl, cutFront, cutBack, whole⟩ := ih rfl
      refine ⟨word ++ front, back, (List.append_assoc _ _ _).symm, ?_, cutBack,
        whole.extend (.name border)⟩
      exact .name isName (fun c isHead => border c (by simp_all)) cutFront

/-! ### Nothing is lost -/

/-- The texts of the tokens are the text without its white space. -/
theorem Cut.flatMap_text {text : Text} {body : List Token} (cut : Cut text body) :
    body.flatMap Token.text = text.filter fun c => !Text.isBlank c := by
  have keeps {part : Text} (noBlank : ∀ c ∈ part, Text.isBlank c = false) (rest : Text) :
      (part ++ rest).filter (fun c => !Text.isBlank c) =
        part ++ rest.filter fun c => !Text.isBlank c := by
    rw [List.filter_append, List.filter_eq_self.mpr fun c isIn => by rw [noBlank c isIn]; rfl]
  induction cut with
  | nil => rfl
  | @blank c rest tokens isBlank others ih => rw [ih, List.filter_cons_of_neg (by simp [isBlank])]
  | @symbol c token rest tokens isSymbol others ih =>
    have noBlank := (class_of_mem_symbols c (mem_symbols isSymbol)).2.2
    rw [List.flatMap_cons, ih, text_of_ofSymbol? isSymbol,
      List.filter_cons_of_pos (by simp [noBlank])]
    rfl
  | @number digits rest tokens nonempty parts border others ih =>
    have noBlank : ∀ c ∈ digits, Text.isBlank c = false :=
      fun c isIn => Text.isBlank_eq_false_of_isNumeralPart (parts c isIn)
    rw [List.flatMap_cons, ih, keeps noBlank]
    rfl
  | @name word rest tokens isName border others ih =>
    rw [List.flatMap_cons, ih, keeps (Text.isBlank_eq_false_of_isName isName)]
    rfl

/-! ### Spaces between the tokens -/

/-- The texts of the tokens with a space between each two. -/
def spaced (tokens : List Token) : Text :=
  List.intercalate [' '] (tokens.map Token.text)

/-- A token in front of a text that starts with white space, or is empty. -/
theorem Cut.cons_spaced {text : Text} {token : Token} {before behind tokens : List Token}
    {rest : Text} (cut : Cut text (before ++ token :: behind))
    (border : ∀ c ∈ rest.head?, Text.isBlank c = true) (others : Cut rest tokens) :
    Cut (token.text ++ rest) (token :: tokens) := by
  have ends : ∀ c ∈ rest.head?, Text.isWordPart c = false ∧ isNumeralPart c = false := by
    intro c isHead
    obtain ⟨noPart, noNumeralPart, -⟩ := class_of_isBlank (border c isHead)
    exact ⟨noPart, noNumeralPart⟩
  generalize split : before ++ token :: behind = body at cut
  induction cut generalizing before with
  | nil => simp at split
  | blank isBlank _ ih => exact ih split
  | @symbol c first rest' tokens' isSymbol _ ih =>
    cases before with
    | nil =>
      cases split
      rw [text_of_ofSymbol? isSymbol]
      exact .symbol isSymbol others
    | cons other before =>
      cases split
      exact ih rfl
  | number nonempty parts _ _ ih =>
    cases before with
    | nil =>
      cases split
      exact .number nonempty parts (fun c isHead => (ends c isHead).2) others
    | cons other before =>
      cases split
      exact ih rfl
  | name isName _ _ ih =>
    cases before with
    | nil =>
      cases split
      refine .name isName (fun c isHead => ⟨(ends c isHead).1, ?_⟩) others
      rintro rfl
      cases (ends '.' isHead).2
    | cons other before =>
      cases split
      exact ih rfl

/-- The tokens of a text, spelled with spaces between them, are cut again. -/
theorem Cut.spaced {text : Text} {before body : List Token} (cut : Cut text (before ++ body)) :
    Cut (spaced body) body := by
  induction body generalizing before with
  | nil => exact .nil
  | cons token others ih =>
    have later : Cut text (before ++ [token] ++ others) := by
      rwa [List.append_assoc, List.singleton_append]
    have behind := ih later
    cases others with
    | nil =>
      have noBorder : ∀ c ∈ ([] : Text).head?, Text.isBlank c = true := nofun
      simpa [Token.spaced, List.intercalate] using cut.cons_spaced noBorder .nil
    | cons next more =>
      have blank : Text.isBlank ' ' = true := rfl
      have joined : Token.spaced (token :: next :: more) =
          token.text ++ ' ' :: Token.spaced (next :: more) := by
        simp [Token.spaced, List.intercalate]
      rw [joined]
      refine cut.cons_spaced ?_ (.blank blank behind)
      rintro c ⟨⟩
      exact blank

/-! ### The character that is refused -/

/-- Behind what has been read, the reader goes on from the state that it is in. -/
theorem ofTextFrom_append {word last : OpenWord} {found all : List Token} {front : Text}
    (read : scan (word, found) front = some (last, all)) (index : Nat) (back : Text) :
    ofTextFrom index word found (front ++ back) =
      ofTextFrom (index + front.length) last all back := by
  induction front generalizing index word found with
  | nil =>
    cases read
    rfl
  | cons c rest ih =>
    rw [scan_cons, Option.bind_eq_some_iff] at read
    obtain ⟨⟨next, middle⟩, stepped, later⟩ := read
    rw [List.cons_append, ofTextFrom, stepped, List.length_cons, Nat.add_comm rest.length,
      ← Nat.add_assoc]
    exact ih later (index + 1)

/-- Whatever is refused stands behind a text that is read. -/
theorem exists_refused {word : OpenWord} {found : List Token} {index : Nat} {text : Text}
    {e : LexError} (refused : ofTextFrom index word found text = .error e) :
    ∃ front c back last all, text = front ++ c :: back ∧
      scan (word, found) front = some (last, all) ∧ step last all c = none := by
  induction text generalizing index word found with
  | nil => cases refused
  | cons c rest ih =>
    rw [ofTextFrom] at refused
    cases stepped : step word found c with
    | none => exact ⟨[], c, rest, word, found, rfl, rfl, stepped⟩
    | some state =>
      rw [stepped] at refused
      obtain ⟨front, d, back, last, all, rfl, read, noStep⟩ := ih refused
      refine ⟨c :: front, d, back, last, all, rfl, ?_, noStep⟩
      rw [scan_cons, stepped]
      exact read

/-- Behind a text that is read, a character that cannot be read is an error, whatever follows. -/
theorem ofText_refused {front : Text} {c : Char} {last : OpenWord} {all : List Token}
    (read : scan (.nothing, []) front = some (last, all)) (noStep : step last all c = none)
    (back : Text) : ofText (front ++ c :: back) = .error ⟨c, last, front.length⟩ := by
  rw [ofText, ofTextFrom_append read, ofTextFrom, noStep, Nat.zero_add]

/-- **What an error says of a text**: where the first character stands that cannot be read, and what
was under construction then. -/
theorem ofText_eq_error_iff (text : Text) (e : LexError) :
    ofText text = .error e ↔ ∃ front c back last all, text = front ++ c :: back ∧
      scan (.nothing, []) front = some (last, all) ∧ step last all c = none ∧
      e = ⟨c, last, front.length⟩ := by
  constructor
  · intro refused
    obtain ⟨front, c, back, last, all, rfl, read, noStep⟩ := exists_refused refused
    rw [ofText_refused read noStep, Except.error.injEq] at refused
    exact ⟨front, c, back, last, all, rfl, read, noStep, refused.symm⟩
  · rintro ⟨front, c, back, last, all, rfl, read, noStep, rfl⟩
    exact ofText_refused read noStep back

/-! ### The reader -/

/-- A text has tokens just if it is written with the characters of expressions, and no point stands
directly behind a name. -/
theorem exists_ofText_eq_ok_iff (text : Text) :
    (∃ tokens, ofText text = .ok tokens) ↔
      (∀ c ∈ text, Text.IsWritable c) ∧ Text.PointsApart text := by
  constructor
  · rintro ⟨tokens, read⟩
    obtain ⟨word, found, scanned, -⟩ := (ofText_eq_ok_iff text tokens).mp read
    exact ⟨isWritable_of_scan scanned, pointsApart_of_scan scanned⟩
  · rintro ⟨writable, apart⟩
    obtain ⟨body, cut⟩ := exists_cut writable apart
    exact ⟨_, ((reads_iff_cut text body).mpr cut).1⟩

/-- **The reader of tokens is exact.** It accepts the texts that are written with the characters of
expressions and have no point directly behind a name. Then the tokens end with their only end mark,
and their texts are the text without its white space; each stands in the text behind what the tokens
before it are read from and before what those behind it are read from, and nothing around it belongs
to it; and spelled with spaces between them they are read again. Otherwise what stands before the
refused character has tokens, and every text that is the same up to that character is refused in the
same way. -/
theorem ofText_exact (text : Text) :
    ((∃ tokens, ofText text = .ok tokens) ↔
      (∀ c ∈ text, Text.IsWritable c) ∧ Text.PointsApart text) ∧
    (∀ tokens, ofText text = .ok tokens → ∃ body, tokens = body ++ [.endMark] ∧ .endMark ∉ body ∧
      body.flatMap Token.text = text.filter (fun c => !Text.isBlank c) ∧
      (∀ before token behind, body = before ++ token :: behind →
        ∃ front back, text = front ++ (token.text ++ back) ∧
          ofText front = .ok (before ++ [.endMark]) ∧ ofText back = .ok (behind ++ [.endMark]) ∧
          IsWhole front token back) ∧
      ofText (spaced body) = .ok tokens) ∧
    ∀ e, ofText text = .error e → e.index < text.length ∧
      (∃ tokens, ofText (text.take e.index) = .ok tokens) ∧
      ∀ other, other.take (e.index + 1) = text.take (e.index + 1) → ofText other = .error e := by
  refine ⟨exists_ofText_eq_ok_iff text, fun tokens read => ?_, fun e refused => ?_⟩
  · obtain ⟨body, rfl, reads⟩ := exists_reads read
    have cut := (reads_iff_cut text body).mp reads
    have again : Cut (spaced body) body := Cut.spaced (body.nil_append.symm ▸ cut)
    refine ⟨body, rfl, reads.2, cut.flatMap_text, fun before token behind split => ?_,
      ((reads_iff_cut _ _).mpr again).1⟩
    obtain ⟨front, back, whole, cutFront, cutBack, isWhole⟩ := cut.exists_place split
    exact ⟨front, back, whole, ((reads_iff_cut _ _).mpr cutFront).1,
      ((reads_iff_cut _ _).mpr cutBack).1, isWhole⟩
  · obtain ⟨front, c, back, last, all, rfl, scanned, noStep, rfl⟩ :=
      (ofText_eq_error_iff text e).mp refused
    have upTo : (front ++ c :: back).take (front.length + 1) = front ++ [c] := by
      rw [List.take_length_add_append]
      rfl
    have accepted := (ofText_eq_ok_iff front _).mpr ⟨last, all, scanned, rfl⟩
    refine ⟨by simp, ?_, fun other same => ?_⟩
    · rw [List.take_left]
      exact ⟨_, accepted⟩
    · rw [upTo] at same
      rw [← List.take_append_drop (front.length + 1) other, same, List.append_assoc,
        List.singleton_append]
      exact ofText_refused scanned noStep _

/-- A name that is glued to a numeral is a token behind it; a point behind a name is refused,
whatever follows. -/
theorem ofText_exact_glued :
    (∃ front back, "2.5x".toList = front ++ ("x".toList ++ back) ∧
      ofText front = .ok [.number "2.5".toList, .endMark] ∧
      IsWhole front (.name "x".toList) back) ∧
    ∀ other, other.take 2 = "x.".toList → ofText other = .error ⟨'.', .name ['x'], 1⟩ := by
  constructor
  · obtain ⟨body, tokens, -, -, place, -⟩ := (ofText_exact "2.5x".toList).2.1 _ rfl
    have isBody : [.number "2.5".toList, .name "x".toList] = body := List.append_cancel_right tokens
    obtain ⟨front, back, split, readFront, -, isWhole⟩ :=
      place [.number "2.5".toList] (.name "x".toList) [] isBody.symm
    exact ⟨front, back, split, readFront, isWhole⟩
  · exact ((ofText_exact "x.5".toList).2.2 ⟨'.', .name ['x'], 1⟩ rfl).2.2

end Token

end Worksheet

/-
**What is marked up in HTML.**

Text in HTML is read in one pass from left to right: where one of the three tags for results or one
of the five entities stands, it is taken as a whole, and every other character stands for itself.
What is shown of a document in HTML has markup in it only where results begin and end, whatever
texts its lines and results have. Without the tags, and with the characters that the entities stand
for, it is what is shown in plain text.

* `Html.Piece` is a tag, an entity or a character, and `Html.pieces` reads a text;
* `flatMap_toText_pieces`: nothing is lost in reading;
* `pieces_flatMap_toText`: pieces that were written are read again;
* `render_html_decodes`: the pieces of a document in HTML, and what they stand for.
-/

import Worksheet.Render

namespace Worksheet

namespace Html

/-! ### Reading -/

/-- The characters that are written as entities. -/
inductive Entity where
  | ampersand
  | less
  | greater
  | quote
  | apostrophe
deriving DecidableEq

namespace Entity

/-- The character that the entity stands for. -/
def char : Entity → Char
  | ampersand => '&'
  | less => '<'
  | greater => '>'
  | quote => '"'
  | apostrophe => '\''

/-- All entities. -/
def all : List Entity :=
  [ampersand, less, greater, quote, apostrophe]

/-- The way in which the entity is written. -/
def toText : Entity → Text
  | ampersand => "&amp;".toList
  | less => "&lt;".toList
  | greater => "&gt;".toList
  | quote => "&quot;".toList
  | apostrophe => "&#39;".toList

end Entity

/-- What text in HTML consists of. -/
inductive Piece where
  /-- The tag in front of a result. -/
  | opening (outcome : Outcome)
  /-- The tag behind a result. -/
  | closing
  | entity (sign : Entity)
  /-- A character that stands for itself. -/
  | plain (c : Char)
deriving DecidableEq

namespace Piece

/-- The way in which the piece is written. -/
def toText : Piece → Text
  | opening .success => "<span class=\"result\">".toList
  | opening .error => "<span class=\"result error\">".toList
  | closing => "</span>".toList
  | entity sign => sign.toText
  | plain c => [c]

/-- The text that the piece stands for; tags stand for nothing. -/
def meaning : Piece → Text
  | opening _ | closing => []
  | entity sign => [sign.char]
  | plain c => [c]

def isTag : Piece → Bool
  | opening _ | closing => true
  | entity _ | plain _ => false

/-- The tags and the entities. -/
def marked : List Piece :=
  [opening .success, opening .error, closing] ++ Entity.all.map entity

/-- The piece that a text starts with whose first character is `c`. -/
def first (c : Char) (text : Text) : Piece :=
  (marked.find? fun piece => piece.toText.isPrefixOf text).getD (plain c)

end Piece

/-- Reads a text whose first `skipped` characters belong to a piece that is read already. -/
def piecesFrom (skipped : Nat) : Text → List Piece
  | [] => []
  | c :: rest =>
    match skipped with
    | skipped + 1 => piecesFrom skipped rest
    | 0 =>
      let piece := Piece.first c (c :: rest)
      piece :: piecesFrom (piece.toText.length - 1) rest

/-- Reads a text in one pass from left to right. -/
def pieces (text : Text) : List Piece :=
  piecesFrom 0 text

/-- The text without its tags, and with characters in place of its entities. -/
def decode (text : Text) : Text :=
  (pieces text).flatMap Piece.meaning

/-! ### One piece -/

theorem Piece.toText_ne_nil (piece : Piece) : piece.toText ≠ [] := by
  cases piece with
  | opening outcome => cases outcome <;> decide
  | closing => decide
  | entity sign => cases sign <;> decide
  | plain c => exact List.cons_ne_nil c []

theorem Piece.toText_first_prefix (c : Char) (rest : Text) :
    (first c (c :: rest)).toText <+: c :: rest := by
  unfold first
  cases found : marked.find? fun piece => piece.toText.isPrefixOf (c :: rest) with
  | none => exact ⟨rest, rfl⟩
  | some piece =>
    have starts := List.find?_some (p := fun piece : Piece => piece.toText.isPrefixOf _) found
    exact List.isPrefixOf_iff_prefix.mp starts

theorem piecesFrom_eq (skipped : Nat) (text : Text) :
    piecesFrom skipped text = pieces (text.drop skipped) := by
  induction text generalizing skipped with
  | nil => cases skipped <;> rfl
  | cons c rest ih =>
    cases skipped with
    | zero => rfl
    | succ skipped => exact ih skipped

/-- A text that is not empty is read as its first piece and what stands behind it. -/
theorem exists_pieces_cons (c : Char) (rest : Text) :
    ∃ behind, c :: rest = (Piece.first c (c :: rest)).toText ++ behind ∧
      pieces (c :: rest) = Piece.first c (c :: rest) :: pieces behind := by
  obtain ⟨behind, whole⟩ := Piece.toText_first_prefix c rest
  obtain ⟨d, others, written⟩ :=
    List.exists_cons_of_ne_nil (Piece.first c (c :: rest)).toText_ne_nil
  refine ⟨behind, whole.symm, ?_⟩
  have unfolded : pieces (c :: rest) = Piece.first c (c :: rest) ::
      piecesFrom ((Piece.first c (c :: rest)).toText.length - 1) rest := rfl
  rw [written, List.cons_append, List.cons.injEq] at whole
  rw [unfolded, piecesFrom_eq, written, List.length_cons, Nat.add_sub_cancel, ← whole.2,
    List.drop_left]

/-- **The pieces of a text make up the text.** -/
theorem flatMap_toText_pieces : ∀ text : Text, (pieces text).flatMap Piece.toText = text
  | [] => rfl
  | c :: rest => by
    obtain ⟨behind, whole, read⟩ := exists_pieces_cons c rest
    have shorter : behind.length < (c :: rest).length := by
      have some := List.length_pos_iff.mpr (Piece.first c (c :: rest)).toText_ne_nil
      rw [whole, List.length_append]
      omega
    rw [read, List.flatMap_cons, flatMap_toText_pieces behind, ← whole]
termination_by text => text.length
decreasing_by exact shorter

/-! ### Reading what was written -/

/-- A character that begins neither a tag nor an entity is a piece of its own. -/
theorem Piece.first_plain {c : Char} (noTag : c ≠ '<') (noEntity : c ≠ '&') (rest : Text) :
    first c (c :: rest) = plain c := by
  have starts :
      ∀ piece ∈ marked, piece.toText.head? = some '<' ∨ piece.toText.head? = some '&' := by
    decide
  have none : marked.find? (fun piece => piece.toText.isPrefixOf (c :: rest)) = none := by
    rw [List.find?_eq_none]
    intro piece isMarked begins
    obtain ⟨behind, whole⟩ := List.isPrefixOf_iff_prefix.mp begins
    obtain ⟨d, others, written⟩ := List.exists_cons_of_ne_nil piece.toText_ne_nil
    have head := starts piece isMarked
    rw [written, List.cons_append, List.cons.injEq] at whole
    rw [written, List.head?_cons, whole.1, Option.some.injEq, Option.some.injEq] at head
    exact head.elim noTag noEntity
  rw [first, none, Option.getD_none]

/-- What was written as a piece starts with this piece, unless a character looks like the start of a
tag or of an entity. -/
theorem Piece.first_append {piece : Piece} (noTag : piece ≠ .plain '<')
    (noEntity : piece ≠ .plain '&') {c : Char} {rest behind : Text}
    (written : piece.toText ++ behind = c :: rest) :
    first c (c :: rest) = piece := by
  rw [← written]
  cases piece with
  | opening outcome => cases outcome <;> rfl
  | closing => rfl
  | entity sign => cases sign <;> rfl
  | plain d =>
    obtain ⟨rfl, -⟩ := List.cons.inj written
    rw [ne_eq, Piece.plain.injEq] at noTag noEntity
    exact first_plain noTag noEntity behind

/-- **Pieces that were written are read again.** -/
theorem pieces_flatMap_toText {written : List Piece} (noTag : .plain '<' ∉ written)
    (noEntity : .plain '&' ∉ written) : pieces (written.flatMap Piece.toText) = written := by
  induction written with
  | nil => rfl
  | cons piece others ih =>
    rw [List.mem_cons, not_or] at noTag noEntity
    rw [List.flatMap_cons]
    cases text : piece.toText ++ others.flatMap Piece.toText with
    | nil => exact absurd (List.append_eq_nil_iff.mp text).1 piece.toText_ne_nil
    | cons c rest =>
      obtain ⟨behind, whole, read⟩ := exists_pieces_cons c rest
      have found := Piece.first_append (Ne.symm noTag.1) (Ne.symm noEntity.1) text
      rw [found, ← text] at whole
      rw [read, found, ← List.append_cancel_left whole, ih noTag.2 noEntity.2]

/-- An entity is read once: what it stands for does not begin another one. -/
example : decode "1 &amp;lt; 2 <span class=\"result\">3</span>".toList = "1 &lt; 2 3".toList := by
  decide +kernel

/-! ### Writing -/

/-- The piece that a character is written as. -/
def Piece.ofChar (c : Char) : Piece :=
  ((Entity.all.find? fun sign => sign.char == c).map entity).getD (plain c)

end Html

namespace AnnotatedLine

open Html (Piece)

/-- The pieces of a line in HTML. -/
def pieces (line : AnnotatedLine) : List Piece :=
  match line.result with
  | some result =>
    line.text.map Piece.ofChar ++ .plain ' ' :: .opening result.outcome ::
      (result.toText.map Piece.ofChar ++ [.closing])
  | none => line.text.map Piece.ofChar

/-- The tags of a line in HTML: one in front of its result and one behind it. -/
def tags (line : AnnotatedLine) : List Piece :=
  match line.result with
  | some result => [.opening result.outcome, .closing]
  | none => []

end AnnotatedLine

namespace Html

/-- A character is written as the entity that stands for it, or else as itself. -/
theorem Piece.ofChar_cases (c : Char) :
    (∃ sign, ofChar c = entity sign ∧ sign.char = c) ∨
      ofChar c = plain c ∧ ∀ sign : Entity, sign.char ≠ c := by
  unfold ofChar
  cases found : Entity.all.find? fun sign => sign.char == c with
  | some sign =>
    have stands := List.find?_some (p := fun sign : Entity => sign.char == c) found
    exact Or.inl ⟨sign, rfl, eq_of_beq stands⟩
  | none =>
    refine Or.inr ⟨rfl, fun sign stands => ?_⟩
    have isEntity : sign ∈ Entity.all := by cases sign <;> decide
    exact List.find?_eq_none.mp found sign isEntity (beq_iff_eq.mpr stands)

theorem Piece.toText_ofChar (c : Char) : (ofChar c).toText = escapeChar c := by
  rcases ofChar_cases c with ⟨sign, isEntity, rfl⟩ | ⟨isPlain, noEntity⟩
  · rw [isEntity]
    cases sign <;> rfl
  · have ampersand : c ≠ '&' := (noEntity .ampersand).symm
    have less : c ≠ '<' := (noEntity .less).symm
    have greater : c ≠ '>' := (noEntity .greater).symm
    have quote : c ≠ '"' := (noEntity .quote).symm
    have apostrophe : c ≠ '\'' := (noEntity .apostrophe).symm
    have itself : (plain c).toText = [c] := rfl
    rw [isPlain, itself]
    unfold escapeChar
    simp only [beq_iff_eq, ampersand, less, greater, quote, apostrophe, if_false]

theorem Piece.meaning_ofChar (c : Char) : (ofChar c).meaning = [c] := by
  rcases ofChar_cases c with ⟨sign, isEntity, rfl⟩ | ⟨isPlain, -⟩
  · rw [isEntity, meaning]
  · rw [isPlain, meaning]

theorem Piece.isTag_ofChar (c : Char) : (ofChar c).isTag = false := by
  rcases ofChar_cases c with ⟨sign, isEntity, -⟩ | ⟨isPlain, -⟩
  · rw [isEntity, isTag]
  · rw [isPlain, isTag]

/-- A character that an entity stands for is never written as itself. -/
theorem Piece.ofChar_ne_plain (sign : Entity) (c : Char) : ofChar c ≠ plain sign.char := by
  rcases ofChar_cases c with ⟨sign, isEntity, -⟩ | ⟨isPlain, noEntity⟩
  · rw [isEntity]
    exact nofun
  · rw [isPlain]
    exact fun same => noEntity sign (Piece.plain.inj same).symm

/-! ### Texts -/

theorem flatMap_toText_ofChar (text : Text) :
    (text.map Piece.ofChar).flatMap Piece.toText = escape text := by
  rw [List.flatMap_map, escape]
  simp only [Piece.toText_ofChar]

theorem flatMap_meaning_ofChar (text : Text) :
    (text.map Piece.ofChar).flatMap Piece.meaning = text := by
  rw [List.flatMap_map]
  simp only [Piece.meaning_ofChar, List.flatMap_singleton']

theorem filter_isTag_ofChar (text : Text) : (text.map Piece.ofChar).filter Piece.isTag = [] := by
  rw [List.filter_eq_nil_iff, List.forall_mem_map]
  intro c _
  rw [Piece.isTag_ofChar]
  exact Bool.false_ne_true

theorem plain_notMem_ofChar (sign : Entity) (text : Text) :
    .plain sign.char ∉ text.map Piece.ofChar := by
  intro isIn
  obtain ⟨c, -, same⟩ := List.mem_map.mp isIn
  exact Piece.ofChar_ne_plain sign c same

theorem Piece.toText_opening (outcome : Outcome) :
    (opening outcome).toText =
      "<span class=\"".toList ++ AnnotatedLine.resultClasses outcome ++ "\">".toList := by
  cases outcome <;> rfl

end Html

/-! ### Lines -/

namespace AnnotatedLine

variable (line : AnnotatedLine)

theorem flatMap_toText_pieces : line.pieces.flatMap Html.Piece.toText = line.toHtml := by
  obtain ⟨text, none | result⟩ := line
  · exact Html.flatMap_toText_ofChar text
  · unfold pieces toHtml Html.span
    dsimp only
    rw [List.flatMap_append, List.flatMap_cons, List.flatMap_cons, List.flatMap_append,
      Html.flatMap_toText_ofChar, Html.flatMap_toText_ofChar, Html.Piece.toText_opening,
      List.flatMap_singleton, List.append_assoc _ (Html.escape _)]
    rfl

theorem flatMap_meaning_pieces : line.pieces.flatMap Html.Piece.meaning = line.toPlain := by
  obtain ⟨text, none | result⟩ := line
  · exact Html.flatMap_meaning_ofChar text
  · unfold pieces toPlain
    dsimp only
    rw [List.flatMap_append, List.flatMap_cons, List.flatMap_cons, List.flatMap_append,
      Html.flatMap_meaning_ofChar, Html.flatMap_meaning_ofChar, List.flatMap_singleton]
    simp only [Html.Piece.meaning, List.nil_append, List.append_nil, List.singleton_append]

theorem filter_isTag_pieces : line.pieces.filter Html.Piece.isTag = line.tags := by
  obtain ⟨text, none | result⟩ := line
  · exact Html.filter_isTag_ofChar text
  · unfold pieces tags
    dsimp only
    rw [List.filter_append, Html.filter_isTag_ofChar, List.filter_cons_of_neg Bool.false_ne_true,
      List.filter_cons_of_pos rfl, List.filter_append, Html.filter_isTag_ofChar]
    rfl

theorem plain_notMem_pieces (sign : Html.Entity) : .plain sign.char ∉ line.pieces := by
  obtain ⟨text, none | result⟩ := line
  · exact Html.plain_notMem_ofChar sign text
  · unfold pieces
    dsimp only
    rw [List.mem_append, List.mem_cons, List.mem_cons, List.mem_append, List.mem_singleton]
    have space : Html.Piece.plain sign.char ≠ .plain ' ' := by cases sign <;> decide
    simp [Html.plain_notMem_ofChar, space]

end AnnotatedLine

/-! ### Documents -/

/-- The pieces of a document in HTML, with a line feed between each two lines. -/
def htmlPieces : List AnnotatedLine → List Html.Piece
  | [] => []
  | [last] => last.pieces
  | line :: next :: others => line.pieces ++ .plain '\n' :: htmlPieces (next :: others)

/-- What the pieces of a document become, if a line feed stays and each line becomes a text. -/
theorem flatMap_htmlPieces {become : Html.Piece → Text} {shown : AnnotatedLine → Text}
    (feed : become (.plain '\n') = ['\n'])
    (each : ∀ line : AnnotatedLine, line.pieces.flatMap become = shown line) :
    ∀ lines : List AnnotatedLine,
      (htmlPieces lines).flatMap become = Text.unlines (lines.map shown)
  | [] => rfl
  | [last] => by
    rw [htmlPieces, each, List.map_singleton, Text.unlines, List.intercalate_singleton]
  | line :: next :: others => by
    have ih := flatMap_htmlPieces feed each (next :: others)
    rw [List.map_cons] at ih
    rw [htmlPieces, List.flatMap_append, List.flatMap_cons, each, feed, ih, List.map_cons,
      List.map_cons, Text.unlines_cons_cons, List.singleton_append]

theorem filter_isTag_htmlPieces : ∀ lines : List AnnotatedLine,
    (htmlPieces lines).filter Html.Piece.isTag = lines.flatMap AnnotatedLine.tags
  | [] => rfl
  | [last] => by rw [htmlPieces, last.filter_isTag_pieces, List.flatMap_singleton]
  | line :: next :: others => by
    rw [htmlPieces, List.filter_append, line.filter_isTag_pieces,
      List.filter_cons_of_neg Bool.false_ne_true, filter_isTag_htmlPieces (next :: others)]
    rfl

theorem plain_notMem_htmlPieces (sign : Html.Entity) : ∀ lines : List AnnotatedLine,
    .plain sign.char ∉ htmlPieces lines
  | [] => List.not_mem_nil
  | [last] => last.plain_notMem_pieces sign
  | line :: next :: others => by
    have feed : Html.Piece.plain sign.char ≠ .plain '\n' := by cases sign <;> decide
    rw [htmlPieces, List.mem_append, List.mem_cons, not_or, not_or]
    exact ⟨line.plain_notMem_pieces sign, feed, plain_notMem_htmlPieces sign (next :: others)⟩

/-- What is shown in HTML is read as the pieces that it was made of. -/
theorem pieces_render (lines : List AnnotatedLine) :
    Html.pieces (render .html lines) = htmlPieces lines := by
  have written : (htmlPieces lines).flatMap Html.Piece.toText = render .html lines :=
    flatMap_htmlPieces rfl AnnotatedLine.flatMap_toText_pieces lines
  rw [← written]
  exact Html.pieces_flatMap_toText (plain_notMem_htmlPieces .less lines)
    (plain_notMem_htmlPieces .ampersand lines)

/-- **No text gets into the markup.** What is shown in HTML consists of tags, entities and
characters that have no meaning in HTML. Each line with a result has one tag in front of the result
and one behind it, and there are no others. Without the tags and with the characters that the
entities stand for, it is what is shown in plain text. -/
theorem render_html_decodes (lines : List AnnotatedLine) :
    (Html.pieces (render .html lines)).flatMap Html.Piece.toText = render .html lines ∧
      (∀ c ∈ ['<', '>', '&'], .plain c ∉ Html.pieces (render .html lines)) ∧
      (Html.pieces (render .html lines)).filter Html.Piece.isTag =
        lines.flatMap AnnotatedLine.tags ∧
      Html.decode (render .html lines) = render .plain lines := by
  refine ⟨Html.flatMap_toText_pieces _, ?_, ?_, ?_⟩
  · rw [pieces_render]
    simp only [List.forall_mem_cons]
    exact ⟨plain_notMem_htmlPieces .less lines, plain_notMem_htmlPieces .greater lines,
      plain_notMem_htmlPieces .ampersand lines, nofun⟩
  · rw [pieces_render, filter_isTag_htmlPieces]
  · rw [Html.decode, pieces_render]
    exact flatMap_htmlPieces rfl AnnotatedLine.flatMap_meaning_pieces lines

end Worksheet

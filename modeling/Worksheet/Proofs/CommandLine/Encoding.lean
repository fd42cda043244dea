/-
**Bytes of a text.**

The program gets bytes and reads texts. In UTF-8 the byte of a line feed occurs in no other
character, so that bytes can be cut into lines before they are decoded.

* `Bytes.ofText` encodes a text, and `toText?_ofText` decodes it again;
* `lines_ofText` and `lineText?_ofText`: lines that were written, each with a line feed behind it,
  are read again;
* `lines_flatten`: the first lines of the input, put together, are cut into the same lines;
* `feed_notMem_of_lineText?`: the text of a line has no line feed in it.
-/

import Mathlib.Data.List.Basic
import Worksheet.CommandLine.Input

namespace Worksheet

namespace Bytes

/-- The bytes that encode a text in UTF-8. -/
def ofText (text : Text) : Bytes :=
  text.flatMap String.utf8EncodeChar

theorem ofText_append (front back : Text) : ofText (front ++ back) = ofText front ++ ofText back :=
  List.flatMap_append

/-- **Decoding undoes encoding.** -/
theorem toText?_ofText (text : Text) : toText? (ofText text) = some text := by
  have encoded : (⟨(ofText text).toArray⟩ : ByteArray) = (String.ofList text).toByteArray := by
    rw [String.toByteArray_ofList]
    exact ByteArray.ext List.data_toByteArray.symm
  unfold toText? String.fromUTF8?
  rw [encoded, dif_pos (String.ofList text).isValidUTF8, Option.map_some]
  exact congrArg some String.toList_ofList

/-- Bytes that decode to a text are its encoding. -/
theorem eq_ofText {bytes : Bytes} {text : Text} (decoded : toText? bytes = some text) :
    bytes = ofText text := by
  obtain ⟨string, found, rfl⟩ := Option.map_eq_some_iff.mp decoded
  unfold String.fromUTF8? at found
  split at found
  next valid =>
    obtain rfl := Option.some.inj found
    have encoded := String.toByteArray_ofList (l := (String.ofByteArray ⟨bytes.toArray⟩ valid).toList)
    rw [String.ofList_toList] at encoded
    exact congrArg (fun array : ByteArray => array.data.toList) (encoded.trans
      (ByteArray.ext List.data_toByteArray))
  next => cases found

/-- The byte of a line feed occurs in the encoding of no other character. -/
theorem feed_notMem_utf8EncodeChar {c : Char} (noFeed : c ≠ '\n') :
    10 ∉ String.utf8EncodeChar c := by
  have differs : c.val.toNat ≠ 10 := fun same => noFeed (Char.ext (UInt32.toNat_inj.mp same))
  have noByte (n : Nat) (other : n % 256 ≠ 10) : (10 : UInt8) ≠ UInt8.ofNat n := by
    intro same
    exact other (congrArg UInt8.toNat same).symm
  unfold String.utf8EncodeChar
  revert differs
  generalize c.val.toNat = code
  intro differs
  -- A single byte is the code itself, and every byte of a longer encoding has its first bit set.
  simp only
  split
  · simpa using noByte code (by omega)
  · split
    · simp only [List.mem_cons, List.not_mem_nil, or_false, not_or]
      exact ⟨noByte _ (by omega), noByte _ (by omega)⟩
    · split
      · simp only [List.mem_cons, List.not_mem_nil, or_false, not_or]
        exact ⟨noByte _ (by omega), noByte _ (by omega), noByte _ (by omega)⟩
      · simp only [List.mem_cons, List.not_mem_nil, or_false, not_or]
        exact ⟨noByte _ (by omega), noByte _ (by omega), noByte _ (by omega), noByte _ (by omega)⟩

theorem feed_notMem_ofText {text : Text} (noFeed : '\n' ∉ text) : 10 ∉ ofText text := by
  unfold ofText
  rw [List.mem_flatMap]
  rintro ⟨c, isIn, isFeed⟩
  exact feed_notMem_utf8EncodeChar (fun same => noFeed (same ▸ isIn)) isFeed

/-! ### Lines of bytes -/

theorem lines_cons (byte : UInt8) (bytes : Bytes) :
    lines (byte :: bytes) =
      if byte == 10 then [byte] :: lines bytes else consFirst byte (lines bytes) :=
  rfl

/-- The first line ends behind the first line feed. -/
theorem lines_append_feed {front : Bytes} (noFeed : 10 ∉ front) (back : Bytes) :
    lines (front ++ 10 :: back) = (front ++ [10]) :: lines back := by
  induction front with
  | nil => rfl
  | cons byte rest ih =>
    rw [List.mem_cons, not_or] at noFeed
    rw [List.cons_append, lines_cons, ih noFeed.2, if_neg (by simpa using Ne.symm noFeed.1)]
    rfl

/-- A line of bytes has no line feed in it but the one at its end. -/
theorem exists_of_mem_lines {bytes line : Bytes} (isLine : line ∈ lines bytes) :
    ∃ front, 10 ∉ front ∧ (line = front ∨ line = front ++ [10]) := by
  induction bytes generalizing line with
  | nil => cases isLine
  | cons byte rest ih =>
    rw [lines_cons] at isLine
    split at isLine
    next feed =>
      rcases List.mem_cons.mp isLine with rfl | later
      · exact ⟨[], List.not_mem_nil, Or.inr (congrArg ([·]) (eq_of_beq feed))⟩
      · exact ih later
    next noFeed =>
      have different : 10 ≠ byte := fun same => noFeed (beq_iff_eq.mpr same.symm)
      cases found : lines rest with
      | nil =>
        rw [found, consFirst, List.mem_singleton] at isLine
        exact ⟨[byte], by simpa using different, Or.inl isLine⟩
      | cons first others =>
        rw [found] at ih
        rw [found, consFirst] at isLine
        rcases List.mem_cons.mp isLine with rfl | later
        · obtain ⟨front, clean, shape⟩ := ih List.mem_cons_self
          refine ⟨byte :: front, List.not_mem_cons_of_ne_of_not_mem different clean, ?_⟩
          exact shape.imp (congrArg (byte :: ·)) (congrArg (byte :: ·))
        · exact ih (List.mem_cons_of_mem _ later)

/-- The first lines of the input, put together again, are cut into the same lines. -/
theorem lines_flatten {bytes : Bytes} {pieces : List Bytes} (first : pieces <+: lines bytes) :
    lines pieces.flatten = pieces := by
  induction bytes generalizing pieces with
  | nil =>
    rw [List.prefix_nil.mp first]
    rfl
  | cons byte rest ih =>
    cases pieces with
    | nil => rfl
    | cons piece pieces =>
      rw [lines_cons] at first
      split at first
      next feed =>
        obtain ⟨rfl, later⟩ := List.cons_prefix_cons.mp first
        rw [List.flatten_cons, List.singleton_append, lines_cons, if_pos feed, ih later]
      next noFeed =>
        cases found : lines rest with
        | nil =>
          rw [found, consFirst] at first
          obtain ⟨rfl, later⟩ := List.cons_prefix_cons.mp first
          rw [List.prefix_nil.mp later, List.flatten_singleton, lines_cons, if_neg noFeed]
          rfl
        | cons front others =>
          rw [found] at ih
          rw [found, consFirst] at first
          obtain ⟨rfl, later⟩ := List.cons_prefix_cons.mp first
          have again := ih (List.cons_prefix_cons.mpr ⟨rfl, later⟩)
          rw [List.flatten_cons] at again
          rw [List.flatten_cons, List.cons_append, lines_cons, if_neg noFeed, again, consFirst]

/-- Written lines, each with a line feed behind it, are cut where they were put together. -/
theorem lines_ofText {pieces : List Text} (noFeed : ∀ piece ∈ pieces, '\n' ∉ piece) :
    lines (ofText (pieces.flatMap (· ++ ['\n']))) =
      pieces.map fun piece => ofText (piece ++ ['\n']) := by
  induction pieces with
  | nil => rfl
  | cons first others ih =>
    rw [List.forall_mem_cons] at noFeed
    have feed : ofText ['\n'] = [10] := rfl
    rw [List.flatMap_cons, ofText_append, ofText_append, feed, List.append_assoc,
      List.singleton_append, lines_append_feed (feed_notMem_ofText noFeed.1), ih noFeed.2,
      List.map_cons, ofText_append, feed]

/-- The line feed behind a line is not part of it, if the line does not end with a carriage
return. -/
theorem lineText?_ofText {line : Text} (noReturn : line.getLast? ≠ some '\r') :
    lineText? (ofText (line ++ ['\n'])) = some line := by
  unfold lineText?
  rw [toText?_ofText, Option.map_some, List.reverse_append, List.reverse_singleton,
    List.singleton_append]
  congr 1
  split
  next before shape =>
    rw [List.cons.injEq] at shape
    refine absurd ?_ noReturn
    rw [← List.head?_reverse, shape.2]
    rfl
  next before _ shape =>
    rw [List.cons.injEq] at shape
    rw [← shape.2, List.reverse_reverse]
  next _ others => exact absurd rfl (others _)

/-- A line decodes to a text with no line feed in it but one at its end. -/
theorem feed_notMem_dropLast {bytes line : Bytes} (isLine : line ∈ lines bytes) {text : Text}
    (decoded : toText? line = some text) : '\n' ∉ text.dropLast := by
  obtain ⟨front, clean, shape⟩ := exists_of_mem_lines isLine
  rw [eq_ofText decoded] at shape
  intro isFeed
  obtain ⟨before, behind, whole, noFeed⟩ :=
    List.eq_append_cons_of_mem (List.dropLast_subset _ isFeed)
  have feed : ofText ('\n' :: behind) = 10 :: ofText behind := rfl
  rw [whole, ofText_append, feed] at shape
  rcases shape with inside | atEnd
  · rw [← inside] at clean
    exact clean (by simp)
  · -- The bytes are cut in the same place on both sides, so nothing stands behind the line feed.
    have cut := congrArg lines atEnd
    rw [lines_append_feed (feed_notMem_ofText noFeed), lines_append_feed clean, List.cons.injEq]
      at cut
    have before : ofText before = front := List.append_cancel_right cut.1
    rw [before] at atEnd
    have nothing : ofText behind = ofText [] :=
      (List.cons.inj (List.append_cancel_left atEnd)).2
    have decodedBoth := congrArg toText? nothing
    rw [toText?_ofText, toText?_ofText] at decodedBoth
    rw [whole, Option.some.inj decodedBoth, List.dropLast_concat] at isFeed
    exact noFeed isFeed

/-- The text of a line has no line feed in it. -/
theorem feed_notMem_of_lineText? {bytes line : Bytes} (isLine : line ∈ lines bytes) {text : Text}
    (read : lineText? line = some text) : '\n' ∉ text := by
  obtain ⟨decoded, isText, rfl⟩ := Option.map_eq_some_iff.mp read
  have noFeed := feed_notMem_dropLast isLine isText
  cases reversed : decoded.reverse with
  | nil =>
    rw [List.reverse_eq_nil_iff] at reversed
    subst reversed
    exact List.not_mem_nil
  | cons last before =>
    have whole : decoded = before.reverse ++ [last] := by
      rw [← List.reverse_cons, ← reversed, List.reverse_reverse]
    rw [whole, List.dropLast_concat, List.mem_reverse] at noFeed
    split
    next front shape =>
      rw [List.cons.injEq] at shape
      rw [shape.2] at noFeed
      rw [List.mem_reverse]
      exact fun isFeed => noFeed (List.mem_cons_of_mem _ isFeed)
    next front _ shape =>
      rw [List.cons.injEq] at shape
      rw [← shape.2, List.mem_reverse]
      exact noFeed
    next _ others =>
      rw [whole, List.mem_append, List.mem_reverse, List.mem_singleton, not_or]
      exact ⟨noFeed, fun isFeed => others before (by rw [isFeed])⟩

end Bytes

end Worksheet

import ScopedCheck.Proofs.Source.RoundTrip

/-!
# Line texts and line bounds

The bounds of a line come from the scan of its text, the line text from a slice by
bytes with the terminator taken off.  Both are the same part of the text, and the
line texts with the terminators between them are the text again.  Only a `\r` that
ends the text is counted by the scan and missing from the line texts.
-/

namespace ScopedCheck

namespace LineIndex

open Text (units joinWith)

/-! ## Terminators -/

/-- What a text has between the end of a line's content and the start of the next line. -/
def HasTerminator (text : List Char) (line : Nat) (terminator : List Char) : Prop :=
  ∃ before after, text = before ++ (terminator ++ after) ∧
    (ofText text).lineEnd? line = some (units before) ∧
    (ofText text).lineStart? (line + 1) = some (units before + units terminator)

def terminatorOf (piece : List Char) : List Char :=
  if piece.getLast? = some '\r' then ['\r', '\n'] else ['\n']

theorem terminatorOf_eq_or (piece : List Char) :
    terminatorOf piece = ['\n'] ∨ terminatorOf piece = ['\r', '\n'] := by
  unfold terminatorOf
  split <;> simp

theorem dropLastChar_append_terminatorOf (piece : List Char) :
    dropLastChar '\r' piece ++ terminatorOf piece = piece ++ ['\n'] := by
  unfold terminatorOf
  by_cases hlast : piece.getLast? = some '\r'
  · rcases List.getLast?_eq_some_iff.1 hlast with ⟨content, rfl⟩
    rw [if_pos hlast, dropLastChar_append, List.append_assoc]
    rfl
  · rw [if_neg hlast, dropLastChar_of_ne hlast]

theorem dropLastChar_append_break (before after : List Char) :
    dropLastChar '\r' (before ++ ['\n'] ++ after) =
      before ++ ['\n'] ++ dropLastChar '\r' after := by
  by_cases hlast : after.getLast? = some '\r'
  · rcases List.getLast?_eq_some_iff.1 hlast with ⟨content, rfl⟩
    rw [← List.append_assoc, dropLastChar_append, dropLastChar_append]
  · have hwhole : (before ++ ['\n'] ++ after).getLast? ≠ some '\r' := by
      rw [List.getLast?_append]
      cases hend : after.getLast? with
      | none => simp
      | some c => simpa [hend] using hlast
    rw [dropLastChar_of_ne hwhole, dropLastChar_of_ne hlast]

section

variable {text piece : List Char} {line : Nat}

theorem hasTerminator_terminatorOf (h : (pieces text)[line]? = some piece)
    (hlt : line + 1 < (pieces text).length) : HasTerminator text line (terminatorOf piece) := by
  obtain ⟨after, htext, ⟨hlast, _⟩ | ⟨_, rest, rfl⟩⟩ := exists_after h
  · omega
  · have hnext : (pieces text)[line + 1]? = some (pieces text)[line + 1] :=
      List.getElem?_eq_getElem hlt
    have hstart : before text (line + 1) = before text line ++ piece ++ ['\n'] :=
      Text.leading_succ h
    have hrow := dropLastChar_append_terminatorOf piece
    have hnot : decide (line + 1 = (pieces text).length) = false := by
      simpa using Nat.ne_of_lt hlt
    refine ⟨before text line ++ dropLastChar '\r' piece, rest, ?_, ?_, ?_⟩
    · rw [List.append_assoc, ← List.append_assoc (dropLastChar '\r' piece), hrow]
      simpa using htext
    · rw [lineEnd?, getElem?_lines h, Option.map_some, hnot, Text.units_append]
      rfl
    · have hbounds := congrArg units hrow
      simp only [Text.units_append] at hbounds
      rw [lineStart?, getElem?_lines hnext, Option.map_some, hstart, Option.some.injEq]
      simp only [Text.units_append]
      omega

/-! ## Content -/

theorem getLast?_of_last (h : (pieces text)[line]? = some piece)
    (hlast : line + 1 = (pieces text).length) (hreturn : piece.getLast? = some '\r') :
    text.getLast? = some '\r' := by
  obtain ⟨after, htext, ⟨_, rfl⟩ | ⟨hlt, _⟩⟩ := exists_after h
  · rw [htext, List.append_nil, List.getLast?_append, hreturn]
    rfl
  · omega

theorem getLast?_last_piece (h : (pieces text)[line]? = some piece)
    (hlast : line + 1 = (pieces text).length) (hreturn : text.getLast? = some '\r') :
    piece.getLast? = some '\r' := by
  obtain ⟨after, htext, ⟨_, rfl⟩ | ⟨hlt, _⟩⟩ := exists_after h
  · rw [htext, List.append_nil, List.getLast?_append] at hreturn
    by_cases hpiece : piece = []
    · subst hpiece
      cases line with
      | zero => simp [before] at hreturn
      | succ earlier =>
          have hprevious : (pieces text)[earlier]? = some (pieces text)[earlier] :=
            List.getElem?_eq_getElem (by omega)
          have hstart : before text (earlier + 1) =
              before text earlier ++ (pieces text)[earlier] ++ ['\n'] :=
            Text.leading_succ hprevious
          simp [hstart] at hreturn
    · rw [List.getLast?_eq_some_getLast hpiece] at hreturn ⊢
      exact hreturn
  · omega

/-- Where no `\r` ends the text, a line is shown with all of its content. -/
theorem contentOf_eq_dropLastChar (h : (pieces text)[line]? = some piece)
    (hreturn : text.getLast? ≠ some '\r') :
    contentOf piece (decide (line + 1 = (pieces text).length)) = dropLastChar '\r' piece := by
  by_cases hlast : line + 1 = (pieces text).length
  · have hpiece : piece.getLast? ≠ some '\r' := fun hend => hreturn (getLast?_of_last h hlast hend)
    simp [contentOf, hlast, dropLastChar_of_ne hpiece]
  · simp [contentOf, hlast]

end

/-! ## Rows -/

/-- Pieces as they are shown, each with the terminator after it; the last one has none. -/
def rows : List (List Char) → List (List Char × List Char)
  | [] => []
  | piece :: rest =>
      (dropLastChar '\r' piece, if rest.isEmpty then [] else terminatorOf piece) :: rows rest

theorem length_rows (lines : List (List Char)) : (rows lines).length = lines.length := by
  induction lines with
  | nil => rfl
  | cons piece rest ih => simp [rows, ih]

theorem getElem?_rows (lines : List (List Char)) (line : Nat) :
    (rows lines)[line]? = lines[line]?.map fun piece =>
      (dropLastChar '\r' piece, if line + 1 = lines.length then [] else terminatorOf piece) := by
  induction lines generalizing line with
  | nil => rfl
  | cons piece rest ih =>
      cases line with
      | zero => cases rest <;> simp [rows]
      | succ line => simp [rows, ih]

theorem flatMap_rows (lines : List (List Char)) :
    ((rows lines).flatMap fun row => row.1 ++ row.2) =
      dropLastChar '\r' (joinWith ['\n'] lines) := by
  induction lines with
  | nil => rfl
  | cons piece rest ih =>
      cases rest with
      | nil => simp [rows, joinWith]
      | cons next more =>
          calc
            ((rows (piece :: next :: more)).flatMap fun row => row.1 ++ row.2)
                = dropLastChar '\r' piece ++ terminatorOf piece ++
                    ((rows (next :: more)).flatMap fun row => row.1 ++ row.2) := rfl
            _ = piece ++ ['\n'] ++ dropLastChar '\r' (joinWith ['\n'] (next :: more)) := by
                rw [dropLastChar_append_terminatorOf, ih]
            _ = dropLastChar '\r' (joinWith ['\n'] (piece :: next :: more)) := by
                rw [← dropLastChar_append_break]
                rfl

/--
Whether the line texts of a text and the terminators between its lines make up a whole.

There is one row for each line, with the line text and what stands before the next line.
-/
def Rebuilds (text whole : List Char) : Prop :=
  ∃ rows : List (List Char × List Char),
    rows.length = (ofText text).lineCount ∧
    whole = (rows.flatMap fun row => row.1 ++ row.2) ∧
    ∀ line shown terminator, rows[line]? = some (shown, terminator) →
      (ofText text).lineText? line text = some shown ∧
        (line + 1 = (ofText text).lineCount ∧ terminator = [] ∨
          HasTerminator text line terminator ∧ (terminator = ['\n'] ∨ terminator = ['\r', '\n']))

theorem rebuilds_dropLastChar (text : List Char) : Rebuilds text (dropLastChar '\r' text) := by
  refine ⟨rows (pieces text), ?_, ?_, ?_⟩
  · rw [length_rows, lineCount_ofText]
  · rw [flatMap_rows, Text.joinWith_splitAt]
  · intro line shown terminator hrow
    rw [getElem?_rows] at hrow
    obtain ⟨piece, hpiece, heq⟩ := Option.map_eq_some_iff.1 hrow
    obtain ⟨rfl, rfl⟩ := Prod.mk.inj heq
    rw [lineText?_ofText, hpiece, lineCount_ofText]
    refine ⟨rfl, ?_⟩
    by_cases hlast : line + 1 = (pieces text).length
    · left
      exact ⟨hlast, if_pos hlast⟩
    · right
      obtain ⟨hlt, _⟩ := List.getElem?_eq_some_iff.1 hpiece
      rw [if_neg hlast]
      exact ⟨hasTerminator_terminatorOf hpiece (by omega), terminatorOf_eq_or piece⟩

/-! ## Agreement -/

/-- Line texts that are what the bounds of the lines say. -/
structure TextsAgree (text : List Char) : Prop where
  content : ∀ line < (ofText text).lineCount, ∃ content, HasContent text line content ∧
    (ofText text).lineText? line text = some content
  column_le : ∀ offset, ∃ shown,
    (ofText text).lineText? ((ofText text).lineColumn offset).line text = some shown ∧
      ((ofText text).lineColumn offset).column ≤ units shown
  rebuilds : Rebuilds text text

theorem textsAgree_of_ne {text : List Char} (h : text.getLast? ≠ some '\r') : TextsAgree text where
  content := by
    intro line hline
    rw [lineCount_ofText] at hline
    have hpiece : (pieces text)[line]? = some (pieces text)[line] := List.getElem?_eq_getElem hline
    refine ⟨_, hasContent_contentOf hpiece, ?_⟩
    rw [lineText?_ofText, hpiece, Option.map_some, contentOf_eq_dropLastChar hpiece h]
  column_le := by
    intro offset
    obtain ⟨line, column, piece, hplace⟩ := exists_place_min text offset
    rw [← lineColumn_min, hplace.lineColumn, contentOf_eq_dropLastChar hplace.piece_eq h]
    refine ⟨dropLastChar '\r' piece, ?_, Nat.min_le_right _ _⟩
    rw [lineText?_ofText, hplace.piece_eq, Option.map_some]
  rebuilds := by
    have hwhole := rebuilds_dropLastChar text
    rwa [dropLastChar_of_ne h] at hwhole

theorem not_textsAgree_of_return {text : List Char} (h : text.getLast? = some '\r') :
    ¬TextsAgree text := by
  intro hagree
  obtain ⟨shown, hshown, hle⟩ := hagree.column_le (units text)
  obtain ⟨line, column, piece, hplace⟩ := exists_place (Nat.le_refl (units text))
  obtain ⟨hcolumn, hlast⟩ := hplace.eq_end
  have hpiece := getLast?_last_piece hplace.piece_eq hlast h
  rcases List.getLast?_eq_some_iff.1 hpiece with ⟨content, rfl⟩
  rw [hplace.lineColumn] at hshown hle
  rw [lineText?_ofText, hplace.piece_eq, Option.map_some, dropLastChar_append] at hshown
  rw [← Option.some.inj hshown] at hle
  simp only [hlast, decide_true, contentOf, if_true, hcolumn, Nat.min_self, Text.units_append,
    Text.units_return] at hle
  omega

/--
Line texts agree with line bounds exactly where no `\r` ends the text.

In any text they are shown and rebuild the text but for such a `\r`, which belongs to the
content of the last line.
-/
theorem lineTexts_agree_iff (text : List Char) :
    (TextsAgree text ↔ text.getLast? ≠ some '\r') ∧
      Rebuilds text (dropLastChar '\r' text) ∧
      ∀ line < (ofText text).lineCount, ∃ content, HasContent text line content ∧
        (ofText text).lineText? line text =
          some (if line + 1 = (ofText text).lineCount then dropLastChar '\r' content
            else content) := by
  refine ⟨⟨?_, textsAgree_of_ne⟩, rebuilds_dropLastChar text, ?_⟩
  · intro hagree hreturn
    exact not_textsAgree_of_return hreturn hagree
  · intro line hline
    exact exists_content hline

/-- A `\r` that no `\n` follows is content, and so is the first of two before a `\n`. -/
theorem lineTexts_agree_mixed_returns :
    let text := ['a', '\r', '\r', '\n', '𝒳', '\r', 'b', '\n']
    text.getLast? ≠ some '\r' ∧ TextsAgree text ∧ 1 < (ofText text).lineCount ∧
      ∃ content, HasContent text 1 content ∧
        (ofText text).lineText? 1 text = some content ∧ content = ['𝒳', '\r', 'b'] := by
  intro text
  have hreturn : text.getLast? ≠ some '\r' := by decide
  have hline : 1 < (ofText text).lineCount := by decide
  obtain ⟨hagree, _, hcontent⟩ := lineTexts_agree_iff text
  obtain ⟨content, hbounds, hshown⟩ := hcontent 1 hline
  rw [if_neg (by decide)] at hshown
  refine ⟨hreturn, hagree.2 hreturn, hline, content, hbounds, hshown, ?_⟩
  exact (Option.some.inj (hshown.symm.trans (by decide)))

/-- The last line is shown without the `\r` that its bounds take in. -/
theorem lineTexts_not_agree_last_return :
    let text := ['a', '\r', '\n', 'b', '\r']
    HasContent text 1 ['b', '\r'] ∧ (ofText text).lineText? 1 text = some ['b'] ∧
      (ofText text).lineColumn 5 = ⟨1, 2⟩ ∧ ¬TextsAgree text := by
  intro text
  refine ⟨⟨['a', '\r', '\n'], [], rfl, by decide, by decide⟩, by decide, by decide, ?_⟩
  intro hagree
  obtain ⟨shown, hshown, hle⟩ := hagree.column_le 5
  have hb : shown = ['b'] := Option.some.inj (hshown.symm.trans (by decide))
  rw [hb] at hle
  exact absurd hle (by decide)

end LineIndex

end ScopedCheck

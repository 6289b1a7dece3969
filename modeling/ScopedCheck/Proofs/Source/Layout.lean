import ScopedCheck.Proofs.Text.Offset
import ScopedCheck.Proofs.Text.Slice
import ScopedCheck.Proofs.Text.Splitting
import ScopedCheck.Source.LineIndex

/-!
# Where lines lie

The lines of an index are what the `\n` of its text separate.  An offset has one
place among them: a line, and a column that is at most the length of the line,
the `\r` of its terminator included.
-/

namespace ScopedCheck

namespace LineIndex

/-- What the line breaks of a text separate; a `\r` before a break is still there. -/
abbrev pieces (text : List Char) : List (List Char) :=
  Text.splitAt '\n' text

/-- The text before a line. -/
abbrev before (text : List Char) (line : Nat) : List Char :=
  Text.leading '\n' (pieces text) line

/-- The content of the last piece is the piece, that of another one has no `\r` at its end. -/
def contentOf (piece : List Char) (isLast : Bool) : List Char :=
  if isLast then piece else dropLastChar '\r' piece

theorem dropLastChar_append (piece : List Char) (c : Char) :
    dropLastChar c (piece ++ [c]) = piece := by
  simp [dropLastChar]

theorem dropLastChar_of_ne {piece : List Char} {c : Char} (h : piece.getLast? ≠ some c) :
    dropLastChar c piece = piece := by
  simp [dropLastChar, h]

theorem units_dropLastChar_le (c : Char) (piece : List Char) :
    Text.units (dropLastChar c piece) ≤ Text.units piece := by
  by_cases hlast : piece.getLast? = some c
  · obtain ⟨content, rfl⟩ := List.getLast?_eq_some_iff.1 hlast
    rw [dropLastChar_append, Text.units_append]
    exact Nat.le_add_right _ _
  · rw [dropLastChar_of_ne hlast]

theorem units_contentOf (piece : List Char) (isLast : Bool) :
    Text.units (contentOf piece isLast) =
      if isLast = false ∧ piece.getLast? = some '\r' then Text.units piece - 1
      else Text.units piece := by
  cases isLast with
  | true => simp [contentOf]
  | false =>
      by_cases hlast : piece.getLast? = some '\r'
      · obtain ⟨content, rfl⟩ := List.getLast?_eq_some_iff.1 hlast
        simp [contentOf, dropLastChar_append]
      · simp [contentOf, dropLastChar_of_ne hlast, hlast]

theorem exists_append_contentOf (piece : List Char) (isLast : Bool) :
    ∃ dropped, piece = contentOf piece isLast ++ dropped := by
  cases isLast with
  | true => exact ⟨[], by simp [contentOf]⟩
  | false =>
      by_cases hlast : piece.getLast? = some '\r'
      · obtain ⟨content, rfl⟩ := List.getLast?_eq_some_iff.1 hlast
        exact ⟨['\r'], by simp [contentOf, dropLastChar_append]⟩
      · exact ⟨[], by simp [contentOf, dropLastChar_of_ne hlast]⟩

/-! ## The scan -/

/-- Lays pieces out one after the other, with a line break after each but the last. -/
def layout (start byteStart : Nat) : List (List Char) → List LineBounds
  | [] => []
  | piece :: rest =>
      ⟨start, start + Text.units (contentOf piece rest.isEmpty), byteStart⟩ ::
        layout (start + Text.units piece + 1) (byteStart + Text.bytes piece + 1) rest

/-- A line that ends with `\r` stops one unit earlier. -/
theorem stop_eq_units_contentOf (start : Nat) (piece : List Char) :
    (if (piece.getLast? == some '\r') = true then start + Text.units piece - 1
      else start + Text.units piece) = start + Text.units (contentOf piece false) := by
  rw [units_contentOf]
  by_cases hlast : piece.getLast? = some '\r'
  · obtain ⟨content, rfl⟩ := List.getLast?_eq_some_iff.1 hlast
    simp only [Text.units_append, Text.units_return, hlast, beq_self_eq_true, if_true, and_self]
    omega
  · simp [hlast]

/-- The scan reads on with `read` as the part of the current line that is behind it. -/
theorem scan_eq_layout (text : List Char) {first : List Char} {more : List (List Char)}
    (h : pieces text = first :: more) (start byteStart : Nat) (read : List Char) :
    scan (start + Text.units read) (byteStart + Text.bytes read) (read.getLast? == some '\r')
      start byteStart text = layout start byteStart ((read ++ first) :: more) := by
  induction text generalizing first more start byteStart read with
  | nil =>
      obtain ⟨rfl, rfl⟩ := List.cons.inj h
      simp [scan, layout, contentOf]
  | cons c rest ih =>
      cases hrest : pieces rest with
      | nil => exact absurd hrest (Text.splitAt_ne_nil '\n' rest)
      | cons next others =>
          simp only [pieces, Text.splitAt] at h hrest
          rw [hrest] at h
          by_cases hc : c = '\n'
          · rw [if_pos hc] at h
            obtain ⟨rfl, rfl⟩ := List.cons.inj h
            have hnext :=
              ih hrest (start + Text.units read + 1) (byteStart + Text.bytes read + 1) []
            simp only [Text.units, Text.bytes, Nat.add_zero, List.nil_append] at hnext
            rw [scan, if_pos hc, stop_eq_units_contentOf, List.append_nil, layout]
            exact congrArg _ hnext
          · rw [if_neg hc, Text.consFirst] at h
            obtain ⟨rfl, rfl⟩ := List.cons.inj h
            have hnext := ih hrest start byteStart (read ++ [c])
            simp only [Text.units_append, Text.bytes_append, Text.units, Text.bytes, Nat.add_zero,
              ← Nat.add_assoc, List.append_assoc, List.singleton_append] at hnext
            rw [scan, if_neg hc, ← hnext]
            simp

theorem lines_ofText (text : List Char) : (ofText text).lines = layout 0 0 (pieces text) := by
  cases hpieces : pieces text with
  | nil => exact absurd hpieces (Text.splitAt_ne_nil '\n' text)
  | cons first more =>
      have hscan := scan_eq_layout text hpieces 0 0 []
      simpa [ofText, Text.units, Text.bytes] using hscan

theorem length_layout (start byteStart : Nat) (lines : List (List Char)) :
    (layout start byteStart lines).length = lines.length := by
  induction lines generalizing start byteStart with
  | nil => rfl
  | cons piece rest ih => simp [layout, ih]

theorem lineCount_ofText (text : List Char) : (ofText text).lineCount = (pieces text).length := by
  rw [lineCount, lines_ofText, length_layout]

theorem getElem?_layout {lines : List (List Char)} {line : Nat} {piece : List Char}
    (h : lines[line]? = some piece) (start byteStart : Nat) :
    (layout start byteStart lines)[line]? = some
      ⟨start + Text.units (Text.leading '\n' lines line),
        start + Text.units (Text.leading '\n' lines line) +
          Text.units (contentOf piece (decide (line + 1 = lines.length))),
        byteStart + Text.bytes (Text.leading '\n' lines line)⟩ := by
  induction lines generalizing start byteStart line with
  | nil => simp at h
  | cons first rest ih =>
      cases line with
      | zero =>
          obtain rfl := Option.some.inj h
          have hlast : rest.isEmpty = decide (0 + 1 = (first :: rest).length) := by
            cases rest <;> simp
          simp [layout, Text.units, Text.bytes, hlast]
      | succ line =>
          have hbyte : '\n'.utf8Size = 1 := rfl
          rw [List.getElem?_cons_succ] at h
          have hlast : decide (line + 1 = rest.length) =
              decide (line + 1 + 1 = (first :: rest).length) := by simp
          rw [layout, List.getElem?_cons_succ, ih h, hlast]
          simp only [Text.leading_cons_succ, Text.units_append, Text.bytes_append, Text.units,
            Text.bytes, Text.charUnits_break, hbyte, Nat.add_assoc]

theorem getElem?_lines {text piece : List Char} {line : Nat}
    (h : (pieces text)[line]? = some piece) :
    (ofText text).lines[line]? = some
      ⟨Text.units (before text line),
        Text.units (before text line) +
          Text.units (contentOf piece (decide (line + 1 = (pieces text).length))),
        Text.bytes (before text line)⟩ := by
  rw [lines_ofText, getElem?_layout h]
  simp

theorem getElem?_lines_eq_none {text : List Char} {line : Nat}
    (h : (pieces text)[line]? = none) : (ofText text).lines[line]? = none := by
  rw [lines_ofText, List.getElem?_eq_none_iff, length_layout]
  exact List.getElem?_eq_none_iff.1 h

/-! ## Around a line -/

theorem text_eq_before_append {text piece : List Char} {line : Nat}
    (h : (pieces text)[line]? = some piece) :
    text = before text line ++ Text.joinWith ['\n'] (piece :: (pieces text).drop (line + 1)) := by
  obtain ⟨hlt, hpiece⟩ := List.getElem?_eq_some_iff.1 h
  have hdrop := List.drop_eq_getElem_cons hlt
  rw [hpiece] at hdrop
  rw [← hdrop, ← Text.joinWith_eq_leading_append '\n' hlt, Text.joinWith_splitAt]

theorem exists_after {text piece : List Char} {line : Nat}
    (h : (pieces text)[line]? = some piece) :
    ∃ after, text = before text line ++ (piece ++ after) ∧
      (line + 1 = (pieces text).length ∧ after = [] ∨
        line + 1 < (pieces text).length ∧ ∃ rest, after = '\n' :: rest) := by
  obtain ⟨hlt, _⟩ := List.getElem?_eq_some_iff.1 h
  have htext := text_eq_before_append h
  cases hrest : (pieces text).drop (line + 1) with
  | nil =>
      have hlength := List.drop_eq_nil_iff.1 hrest
      rw [hrest] at htext
      exact ⟨[], by simpa [Text.joinWith] using htext, .inl ⟨by omega, rfl⟩⟩
  | cons next more =>
      have hlength : line + 1 < (pieces text).length := by
        by_contra hge
        rw [List.drop_eq_nil_iff.2 (by omega)] at hrest
        cases hrest
      rw [hrest] at htext
      exact ⟨'\n' :: Text.joinWith ['\n'] (next :: more), by simpa [Text.joinWith] using htext,
        .inr ⟨hlength, _, rfl⟩⟩

theorem units_eq_of_last {text piece : List Char} {line : Nat}
    (h : (pieces text)[line]? = some piece) (hlast : line + 1 = (pieces text).length) :
    Text.units text = Text.units (before text line) + Text.units piece := by
  obtain ⟨after, htext, ⟨_, rfl⟩ | ⟨hlt, _⟩⟩ := exists_after h
  · have hunits := congrArg Text.units htext
    simpa using hunits
  · omega

theorem exists_terminated {text piece : List Char} {line : Nat}
    (h : (pieces text)[line]? = some piece) :
    ∃ terminated after, text = before text line ++ (terminated ++ after) ∧
      dropLastChar '\n' terminated = piece ∧
      ((ofText text).lines[line + 1]?.elim (Text.bytes text) fun next => next.byteStart) =
        Text.bytes (before text line) + Text.bytes terminated := by
  obtain ⟨after, htext, hafter⟩ := exists_after h
  have hpiece : '\n' ∉ piece := Text.not_mem_of_mem_splitAt (List.mem_of_getElem? h)
  rcases hafter with ⟨hlast, rfl⟩ | ⟨hlt, rest, rfl⟩
  · have hnone : (ofText text).lines[line + 1]? = none :=
      getElem?_lines_eq_none (List.getElem?_eq_none_iff.2 (Nat.le_of_eq hlast.symm))
    refine ⟨piece, [], htext, dropLastChar_of_ne fun hend => ?_, ?_⟩
    · exact hpiece (List.mem_of_getLast? hend)
    · have hbytes := congrArg Text.bytes htext
      simp only [Text.bytes_append, Text.bytes, Nat.add_zero] at hbytes
      rw [hnone, Option.elim_none, hbytes]
  · obtain ⟨next, hnext⟩ : ∃ next, (pieces text)[line + 1]? = some next :=
      ⟨_, List.getElem?_eq_getElem hlt⟩
    have hstart : before text (line + 1) = before text line ++ piece ++ ['\n'] :=
      Text.leading_succ h
    refine ⟨piece ++ ['\n'], rest, by simpa using htext, dropLastChar_append piece '\n', ?_⟩
    rw [getElem?_lines hnext, Option.elim_some, hstart]
    simp only [Text.bytes_append, Nat.add_assoc]

/-- The content of a line is its piece, one `\r` at its end taken off. -/
theorem lineText?_ofText (text : List Char) (line : Nat) :
    (ofText text).lineText? line text = (pieces text)[line]?.map (dropLastChar '\r') := by
  unfold lineText?
  cases hpiece : (pieces text)[line]? with
  | none => simp [getElem?_lines_eq_none hpiece]
  | some piece =>
      obtain ⟨terminated, after, htext, hcontent, hstop⟩ := exists_terminated hpiece
      have hslice := Text.sliceBytes?_append (before text line) terminated after
      rw [← htext] at hslice
      simp only [getElem?_lines hpiece, Option.bind_eq_bind, Option.bind_some]
      cases hnext : (ofText text).lines[line + 1]? with
      | none | some next =>
          rw [hnext] at hstop
          simp only [Option.elim_none, Option.elim_some] at hstop
          simp only [hstop, hslice, Option.bind_some, hcontent, Option.map_some, Option.pure_def]

/-- What a text has between the offsets at which a line starts and at which its content ends. -/
def HasContent (text : List Char) (line : Nat) (content : List Char) : Prop :=
  ∃ before after, text = before ++ (content ++ after) ∧
    (ofText text).lineStart? line = some (Text.units before) ∧
    (ofText text).lineEnd? line = some (Text.units before + Text.units content)

theorem hasContent_contentOf {text piece : List Char} {line : Nat}
    (h : (pieces text)[line]? = some piece) :
    HasContent text line (contentOf piece (decide (line + 1 = (pieces text).length))) := by
  obtain ⟨after, htext, _⟩ := exists_after h
  obtain ⟨dropped, hdropped⟩ :=
    exists_append_contentOf piece (decide (line + 1 = (pieces text).length))
  refine ⟨before text line, dropped ++ after, ?_, ?_, ?_⟩
  · rwa [← List.append_assoc _ dropped, ← hdropped]
  · rw [lineStart?, getElem?_lines h, Option.map_some]
  · rw [lineEnd?, getElem?_lines h, Option.map_some]

/-- A line is shown with its content, but a `\r` that ends the text is not shown. -/
theorem exists_content {text : List Char} {line : Nat} (h : line < (ofText text).lineCount) :
    ∃ content, HasContent text line content ∧ (ofText text).lineText? line text =
      some (if line + 1 = (ofText text).lineCount then dropLastChar '\r' content else content) := by
  rw [lineCount_ofText] at h ⊢
  have hpiece : (pieces text)[line]? = some (pieces text)[line] := List.getElem?_eq_getElem h
  refine ⟨_, hasContent_contentOf hpiece, ?_⟩
  rw [lineText?_ofText, hpiece, Option.map_some]
  by_cases hlast : line + 1 = (pieces text).length <;> simp [contentOf, hlast]

/-! ## Places -/

/-- Where an offset lies: in which line, and how far from its start. -/
structure Place (text : List Char) (offset line column : Nat) (piece : List Char) : Prop where
  piece_eq : (pieces text)[line]? = some piece
  column_le : column ≤ Text.units piece
  offset_eq : Text.units (before text line) + column = offset

/-- Every offset up to the end of the text has a place. -/
theorem exists_place {text : List Char} {offset : Nat} (h : offset ≤ Text.units text) :
    ∃ line column piece, Place text offset line column piece := by
  have hlines : ∀ (lines : List (List Char)) (offset : Nat), lines ≠ [] →
      offset ≤ Text.units (Text.joinWith ['\n'] lines) →
      ∃ line column piece, lines[line]? = some piece ∧ column ≤ Text.units piece ∧
        Text.units (Text.leading '\n' lines line) + column = offset := by
    intro lines
    induction lines with
    | nil => intro offset hne _; exact absurd rfl hne
    | cons first rest ih =>
        intro offset _ hoffset
        by_cases hfirst : offset ≤ Text.units first
        · exact ⟨0, offset, first, rfl, hfirst, by simp [Text.units]⟩
        · cases rest with
          | nil => exact absurd hoffset hfirst
          | cons next more =>
              simp only [Text.joinWith, Text.units_append, Text.units_break] at hoffset
              obtain ⟨line, column, piece, hpiece, hcolumn, heq⟩ :=
                ih (offset - (Text.units first + 1)) (by simp) (by omega)
              refine ⟨line + 1, column, piece, hpiece, hcolumn, ?_⟩
              simp only [Text.leading_cons_succ, Text.units_append, Text.units,
                Text.charUnits_break]
              omega
  obtain ⟨line, column, piece, hpiece, hcolumn, heq⟩ :=
    hlines (pieces text) offset (Text.splitAt_ne_nil '\n' text)
      (by rwa [Text.joinWith_splitAt])
  exact ⟨line, column, piece, hpiece, hcolumn, heq⟩

/-- The lines that start at or before a place are its line and those before it. -/
theorem length_takeWhile_layout {lines : List (List Char)} {line column : Nat}
    {piece : List Char} (h : lines[line]? = some piece) (hcolumn : column ≤ Text.units piece)
    (start byteStart : Nat) :
    ((layout start byteStart lines).takeWhile fun bounds =>
      bounds.start ≤ start + (Text.units (Text.leading '\n' lines line) + column)).length =
        line + 1 := by
  induction lines generalizing start byteStart line with
  | nil => simp at h
  | cons first rest ih =>
      cases line with
      | zero =>
          obtain rfl := Option.some.inj h
          rw [layout, List.takeWhile_cons_of_pos (by simp)]
          cases rest with
          | nil => rfl
          | cons next more =>
              rw [layout, List.takeWhile_cons_of_neg]
              · rfl
              · simp [Text.units]
                omega
      | succ line =>
          have hrest := ih h (start + Text.units first + 1) (byteStart + Text.bytes first + 1)
          have hoffset : start + (Text.units (Text.leading '\n' (first :: rest) (line + 1)) +
              column) = start + Text.units first + 1 +
                (Text.units (Text.leading '\n' rest line) + column) := by
            simp only [Text.leading_cons_succ, Text.units_append, Text.units,
              Text.charUnits_break]
            omega
          rw [hoffset, layout, List.takeWhile_cons_of_pos (by simp; omega), List.length_cons,
            hrest]

namespace Place

variable {text piece : List Char} {offset line column : Nat}

theorem le_units (h : Place text offset line column piece) : offset ≤ Text.units text := by
  obtain ⟨after, htext, _⟩ := exists_after h.piece_eq
  have hcolumn := h.column_le
  have hoffset := h.offset_eq
  have hunits := congrArg Text.units htext
  simp only [Text.units_append] at hunits
  omega

theorem lineOf (h : Place text offset line column piece) :
    (ofText text).lineOf offset = line := by
  have hlength := length_takeWhile_layout h.piece_eq h.column_le 0 0
  rw [Nat.zero_add, h.offset_eq] at hlength
  rw [LineIndex.lineOf, lines_ofText, hlength, Nat.add_sub_cancel]

/-- The column of a place counts up to the end of the content. -/
theorem lineColumn (h : Place text offset line column piece) :
    (ofText text).lineColumn offset =
      ⟨line, min column
        (Text.units (contentOf piece (decide (line + 1 = (pieces text).length))))⟩ := by
  have hmin : min offset (ofText text).length = offset := Nat.min_eq_left h.le_units
  have hoffset := h.offset_eq
  simp only [LineIndex.lineColumn, hmin, h.lineOf, List.getD_eq_getElem?_getD,
    getElem?_lines h.piece_eq, Option.getD_some, LineColumn.mk.injEq, true_and]
  omega

theorem eq_end (h : Place text (Text.units text) line column piece) :
    column = Text.units piece ∧ line + 1 = (pieces text).length := by
  obtain ⟨after, htext, hafter⟩ := exists_after h.piece_eq
  have hcolumn := h.column_le
  have hoffset := h.offset_eq
  have hunits := congrArg Text.units htext
  rcases hafter with ⟨hlast, rfl⟩ | ⟨_, rest, rfl⟩
  · simp only [Text.units_append, Text.units] at hunits
    exact ⟨by omega, hlast⟩
  · simp only [Text.units_append, Text.units, Text.charUnits_break] at hunits
    omega

end Place

end LineIndex

end ScopedCheck

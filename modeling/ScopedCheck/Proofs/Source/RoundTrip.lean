import ScopedCheck.Proofs.Source.Layout

/-!
# From offsets to positions and back

The position of an offset leads back to the offset, except between a `\r` and
its `\n`, where it leads to the `\r`, and past the end, where it leads to the
end.  The offset of a position within the content of its line leads back to the
position.
-/

namespace ScopedCheck

namespace LineIndex

open Text (units charAt? breaksBefore PairAt InsidePair)

/-! ## What stands at a place -/

theorem not_mem_of_getElem?_pieces {text piece : List Char} {line : Nat}
    (h : (pieces text)[line]? = some piece) : '\n' ∉ piece :=
  Text.not_mem_of_mem_splitAt (List.mem_of_getElem? h)

theorem breaksBefore_leading {lines : List (List Char)} (h : ∀ piece ∈ lines, '\n' ∉ piece)
    {line : Nat} (hline : line ≤ lines.length) :
    breaksBefore (Text.leading '\n' lines line) (units (Text.leading '\n' lines line)) = line := by
  induction lines generalizing line with
  | nil =>
      obtain rfl : line = 0 := by simpa using hline
      rfl
  | cons first rest ih =>
      cases line with
      | zero => rfl
      | succ line =>
          have hrest := ih (fun piece hmem => h piece (List.mem_cons_of_mem first hmem))
            (by simpa using hline)
          rw [Text.leading_cons_succ, Text.units_append, units, Text.charUnits_break,
            Text.breaksBefore_append_break (h first List.mem_cons_self), hrest, Nat.add_comm]

namespace Place

variable {text piece : List Char} {offset line column : Nat}

theorem breaksBefore (h : Place text offset line column piece) :
    Text.breaksBefore text offset = line := by
  obtain ⟨after, htext, _⟩ := exists_after h.piece_eq
  obtain ⟨hlt, _⟩ := List.getElem?_eq_some_iff.1 h.piece_eq
  have hbefore : Text.breaksBefore (before text line) (units (before text line)) = line :=
    breaksBefore_leading (fun _ hmem => Text.not_mem_of_mem_splitAt hmem) (Nat.le_of_lt hlt)
  have hpiece : Text.breaksBefore (piece ++ after) column = 0 := by
    apply Nat.count_iff_forall_not.2
    intro place hplace hbreak
    rw [Text.charAt?_append_left after (Nat.lt_of_lt_of_le hplace h.column_le)] at hbreak
    exact not_mem_of_getElem?_pieces h.piece_eq (Text.mem_of_charAt? hbreak)
  calc
    Text.breaksBefore text offset
        = Text.breaksBefore (before text line ++ (piece ++ after))
            (units (before text line) + column) := by rw [← htext, h.offset_eq]
    _ = line := by rw [Text.breaksBefore_append, hbefore, hpiece, Nat.add_zero]

theorem charAt?_eq (h : Place text offset line column piece) {after : List Char}
    (htext : text = before text line ++ (piece ++ after)) :
    charAt? text offset = charAt? (piece ++ after) column := by
  have hright := Text.charAt?_append_right (before text line) (piece ++ after) column
  rwa [← htext, h.offset_eq] at hright

theorem charAt?_eq_break_iff (h : Place text offset line column piece) :
    charAt? text offset = some '\n' ↔
      column = units piece ∧ line + 1 < (pieces text).length := by
  obtain ⟨after, htext, hafter⟩ := exists_after h.piece_eq
  rw [h.charAt?_eq htext]
  have hcolumn := h.column_le
  by_cases hend : column = units piece
  · have hright := Text.charAt?_append_right piece after 0
    rw [Nat.add_zero, ← hend] at hright
    rw [hright]
    rcases hafter with ⟨hlast, rfl⟩ | ⟨hlt, rest, rfl⟩
    · simp [charAt?, hlast]
    · simp [charAt?, hend, hlt]
  · rw [Text.charAt?_append_left after (by omega)]
    constructor
    · intro hbreak
      exact absurd (Text.mem_of_charAt? hbreak) (not_mem_of_getElem?_pieces h.piece_eq)
    · rintro ⟨heq, _⟩
      exact absurd heq hend

/-- No `\r` stands before the start of a line. -/
theorem not_return_before_start (h : Place text offset line 0 piece) (hpos : 0 < offset) :
    charAt? text (offset - 1) ≠ some '\r' := by
  obtain ⟨after, htext, _⟩ := exists_after h.piece_eq
  obtain ⟨hlt, _⟩ := List.getElem?_eq_some_iff.1 h.piece_eq
  have hoffset : units (before text line) = offset := h.offset_eq
  cases line with
  | zero =>
      have hzero : units (before text 0) = 0 := rfl
      omega
  | succ earlier =>
      obtain ⟨previous, hprevious⟩ : ∃ previous, (pieces text)[earlier]? = some previous :=
        ⟨_, List.getElem?_eq_getElem (Nat.lt_of_succ_lt hlt)⟩
      have hstart : before text (earlier + 1) = before text earlier ++ previous ++ ['\n'] :=
        Text.leading_succ hprevious
      have hat := Text.charAt?_append_right (before text earlier ++ previous)
        ('\n' :: (piece ++ after)) 0
      rw [← List.singleton_append, ← List.append_assoc, ← hstart, ← htext] at hat
      rw [hstart, Text.units_append, Text.units_break] at hoffset
      rw [show offset - 1 = units (before text earlier ++ previous) + 0 by omega, hat]
      simp [charAt?]

theorem insidePair_iff (h : Place text offset line column piece) :
    InsidePair text offset ↔
      column = units piece ∧ line + 1 < (pieces text).length ∧ piece.getLast? = some '\r' := by
  obtain ⟨after, htext, _⟩ := exists_after h.piece_eq
  have hoffset := h.offset_eq
  constructor
  · intro hinside
    obtain ⟨hend, hlt⟩ := h.charAt?_eq_break_iff.1 hinside.charAt?
    obtain ⟨hpos, hreturn, _⟩ := hinside
    refine ⟨hend, hlt, ?_⟩
    cases column with
    | zero => exact absurd hreturn (h.not_return_before_start hpos)
    | succ column =>
        have hearlier : Place text (offset - 1) line column piece :=
          ⟨h.piece_eq, by omega, by omega⟩
        rw [hearlier.charAt?_eq htext, Text.charAt?_append_left after (by omega)] at hreturn
        exact Text.getLast?_of_charAt? hreturn (by simpa [Text.charUnits] using hend)
  · rintro ⟨hend, hlt, hlast⟩
    obtain ⟨content, rfl⟩ := List.getLast?_eq_some_iff.1 hlast
    rw [Text.units_append, Text.units_return] at hend
    have hearlier : Place text (offset - 1) line (units content) (content ++ ['\r']) :=
      ⟨h.piece_eq, by simp, by omega⟩
    refine ⟨by omega, ?_, ?_⟩
    · rw [hearlier.charAt?_eq htext, List.append_assoc]
      exact Text.charAt?_append_right content (['\r'] ++ after) 0
    · rw [Nat.sub_add_cancel (by omega)]
      exact h.charAt?_eq_break_iff.2 ⟨by rw [Text.units_append, Text.units_return]; exact hend, hlt⟩

/-- The column that an offset resolves to leads back to it, or to the `\r` before it. -/
theorem start_add_column (h : Place text offset line column piece) :
    units (before text line) +
        min column (units (contentOf piece (decide (line + 1 = (pieces text).length)))) =
      if InsidePair text offset then offset - 1 else offset := by
  have hcolumn := h.column_le
  have hoffset := h.offset_eq
  obtain ⟨hlt, _⟩ := List.getElem?_eq_some_iff.1 h.piece_eq
  have hinside := h.insidePair_iff
  rw [units_contentOf]
  by_cases hreturn : line + 1 < (pieces text).length ∧ piece.getLast? = some '\r'
  · have hpiece : 0 < units piece := by
      obtain ⟨content, rfl⟩ := List.getLast?_eq_some_iff.1 hreturn.2
      rw [Text.units_append, Text.units_return]
      omega
    have hnot : decide (line + 1 = (pieces text).length) = false := by
      simpa using Nat.ne_of_lt hreturn.1
    rw [if_pos ⟨hnot, hreturn.2⟩]
    split
    · rename_i hpair
      have hend := (hinside.1 hpair).1
      omega
    · rename_i hpair
      have hend : column ≠ units piece := fun heq => hpair (hinside.2 ⟨heq, hreturn⟩)
      omega
  · have hnot : ¬(decide (line + 1 = (pieces text).length) = false ∧
        piece.getLast? = some '\r') := by
      rintro ⟨hfalse, hlast⟩
      exact hreturn ⟨Nat.lt_of_le_of_ne hlt (by simpa using hfalse), hlast⟩
    rw [if_neg hnot, if_neg fun hpair => hreturn (hinside.1 hpair).2]
    omega

end Place

/-! ## From offsets to positions -/

theorem exists_place_min (text : List Char) (offset : Nat) :
    ∃ line column piece, Place text (min offset (units text)) line column piece :=
  exists_place (Nat.min_le_right _ _)

theorem lineColumn_min (text : List Char) (offset : Nat) :
    (ofText text).lineColumn (min offset (units text)) = (ofText text).lineColumn offset := by
  have hlength : (ofText text).length = units text := rfl
  simp [lineColumn, hlength]

theorem line_lineColumn (text : List Char) (offset : Nat) :
    ((ofText text).lineColumn offset).line = breaksBefore text (min offset (units text)) := by
  obtain ⟨line, column, piece, hplace⟩ := exists_place_min text offset
  rw [← lineColumn_min, hplace.lineColumn, hplace.breaksBefore]

theorem not_insidePair_units (text : List Char) : ¬InsidePair text (units text) := by
  intro hinside
  exact Nat.lt_irrefl _ (Text.lt_units_of_charAt? hinside.charAt?)

theorem offset?_lineColumn (text : List Char) (offset : Nat) :
    (ofText text).offset? ((ofText text).lineColumn offset) =
      some (if units text < offset then units text
        else if InsidePair text offset then offset - 1 else offset) := by
  obtain ⟨line, column, piece, hplace⟩ := exists_place_min text offset
  rw [← lineColumn_min, hplace.lineColumn, LineIndex.offset?, getElem?_lines hplace.piece_eq,
    Option.map_some, hplace.start_add_column]
  by_cases hpast : units text < offset
  · rw [Nat.min_eq_right (Nat.le_of_lt hpast), if_neg (not_insidePair_units text), if_pos hpast]
  · rw [Nat.min_eq_left (Nat.le_of_not_lt hpast), if_neg hpast]

/-! ## From positions to offsets -/

theorem exists_offset {text : List Char} {line : Nat} (h : line < (ofText text).lineCount) :
    ∃ start stop, (ofText text).lineStart? line = some start ∧
      (ofText text).lineEnd? line = some stop ∧ start ≤ stop ∧
      ∀ column ≤ stop - start, ∃ offset, (ofText text).offset? ⟨line, column⟩ = some offset ∧
        (ofText text).lineColumn offset = ⟨line, column⟩ := by
  rw [lineCount_ofText] at h
  have hpiece : (pieces text)[line]? = some (pieces text)[line] := List.getElem?_eq_getElem h
  have hbounds := getElem?_lines hpiece
  refine ⟨_, _, by rw [lineStart?, hbounds]; rfl, by rw [lineEnd?, hbounds]; rfl,
    Nat.le_add_right _ _, ?_⟩
  intro column hcolumn
  refine ⟨_, by rw [LineIndex.offset?, hbounds]; rfl, ?_⟩
  rw [Nat.add_sub_cancel_left] at hcolumn
  have hcontent := units_contentOf (pieces text)[line] (decide (line + 1 = (pieces text).length))
  have hle : column ≤ units (pieces text)[line] := by
    split at hcontent <;> omega
  have hplace : Place text (units (before text line) + column) line column (pieces text)[line] :=
    ⟨hpiece, hle, rfl⟩
  rw [hplace.lineColumn, Nat.min_eq_left hcolumn]

/-! ## Order -/

/-- Whether a position does not come after another one: lines first, then columns. -/
def NotAfter (a b : LineColumn) : Prop :=
  a.line < b.line ∨ a.line = b.line ∧ a.column ≤ b.column

theorem notAfter_lineColumn (text : List Char) {a b : Nat} (h : a ≤ b) :
    NotAfter ((ofText text).lineColumn a) ((ofText text).lineColumn b) := by
  obtain ⟨line, column, piece, hplace⟩ := exists_place_min text a
  obtain ⟨line', column', piece', hplace'⟩ := exists_place_min text b
  have hmin : min a (units text) ≤ min b (units text) := by omega
  have hlines : line ≤ line' := by
    rw [← hplace.breaksBefore, ← hplace'.breaksBefore]
    exact Nat.count_monotone _ hmin
  rw [← lineColumn_min text a, ← lineColumn_min text b, hplace.lineColumn, hplace'.lineColumn]
  rcases Nat.lt_or_eq_of_le hlines with hlt | rfl
  · exact .inl hlt
  · obtain rfl := Option.some.inj (hplace.piece_eq.symm.trans hplace'.piece_eq)
    have hoffset := hplace.offset_eq
    have hoffset' := hplace'.offset_eq
    refine .inr ⟨rfl, ?_⟩
    dsimp only
    omega

/--
Offsets and positions lead to each other.

An offset lies in the line that the breaks before it count, and its position leads back to it,
but for the inside of `\r\n` and what is past the end.  A position within the content of a
line is found again from its offset, and later offsets have later positions.
-/
theorem lineColumn_roundTrip (text : List Char) :
    (∀ offset,
      ((ofText text).lineColumn offset).line =
          Nat.count (fun place => charAt? text place = some '\n') (min offset (units text)) ∧
        (ofText text).offset? ((ofText text).lineColumn offset) =
          some (if units text < offset then units text
            else if InsidePair text offset then offset - 1 else offset)) ∧
      (∀ line < (ofText text).lineCount, ∃ start stop,
        (ofText text).lineStart? line = some start ∧ (ofText text).lineEnd? line = some stop ∧
          start ≤ stop ∧
          ∀ column ≤ stop - start, ∃ offset,
            (ofText text).offset? ⟨line, column⟩ = some offset ∧
              (ofText text).lineColumn offset = ⟨line, column⟩) ∧
      ∀ a b, a ≤ b → NotAfter ((ofText text).lineColumn a) ((ofText text).lineColumn b) := by
  refine ⟨?_, ?_, ?_⟩
  · intro offset
    exact ⟨line_lineColumn text offset, offset?_lineColumn text offset⟩
  · intro line hline
    exact exists_offset hline
  · intro a b h
    exact notAfter_lineColumn text h

/-- Inside `\r\n` an offset leads to the `\r`; a pair of surrogates counts as two columns. -/
theorem lineColumn_roundTrip_pair :
    let text := ['a', '\r', '\n', '𝒳', '\n']
    InsidePair text 2 ∧ (ofText text).offset? ((ofText text).lineColumn 2) = some 1 ∧
      1 < (ofText text).lineCount ∧
      (∃ start stop, (ofText text).lineStart? 1 = some start ∧
        (ofText text).lineEnd? 1 = some stop ∧ 2 ≤ stop - start) ∧
      NotAfter ((ofText text).lineColumn 2) ((ofText text).lineColumn 4) := by
  intro text
  have hpair : InsidePair text 2 := by decide
  have hline : 1 < (ofText text).lineCount := by decide
  obtain ⟨hoffsets, hpositions, horder⟩ := lineColumn_roundTrip text
  refine ⟨hpair, (hoffsets 2).2, hline, ?_, horder 2 4 (by decide)⟩
  obtain ⟨start, stop, hstart, hstop, _⟩ := hpositions 1 hline
  refine ⟨start, stop, hstart, hstop, ?_⟩
  obtain rfl := Option.some.inj hstart
  obtain rfl := Option.some.inj hstop
  decide

end LineIndex

end ScopedCheck

import ScopedCheck.Proofs.Source.Returns

/-!
# What a position says of its span

A position lies inside its text and starts no later than it ends.  Its start leads
back to the start of the span, and its end to the end, less the line terminator
that a span over several lines may end with.  Its context is a window of lines
without gaps.
-/

namespace ScopedCheck

namespace Text

/-- Length of the line terminator that ends at an offset, zero when there is none. -/
def terminatorBefore (text : List Char) (offset : Nat) : Nat :=
  if 0 < offset ∧ charAt? text (offset - 1) = some '\n' then
    if InsidePair text (offset - 1) then 2 else 1
  else 0

end Text

namespace LineIndex

open Text (units charAt? breaksBefore InsidePair terminatorBefore)

/-- A one-based line and column inside a text, at most just past the content of the line. -/
structure Contains (index : LineIndex) (line column : Nat) : Prop where
  one_le_line : 1 ≤ line
  line_le : line ≤ index.lineCount
  one_le_column : 1 ≤ column
  column_le : column - 1 ≤ index.width (line - 1)

section

variable {text piece : List Char} {offset line column : Nat}

theorem width_eq (h : (pieces text)[line]? = some piece) :
    (ofText text).width line =
      units (contentOf piece (decide (line + 1 = (pieces text).length))) := by
  simp [width, List.getD_eq_getElem?_getD, getElem?_lines h]

theorem contains_lineColumn (text : List Char) (offset : Nat) :
    (ofText text).Contains (((ofText text).lineColumn offset).line + 1)
      (((ofText text).lineColumn offset).column + 1) := by
  obtain ⟨line, column, piece, hplace⟩ := exists_place_min text offset
  obtain ⟨hlt, _⟩ := List.getElem?_eq_some_iff.1 hplace.piece_eq
  rw [← lineColumn_min, hplace.lineColumn]
  refine ⟨Nat.le_add_left 1 line, ?_, Nat.le_add_left 1 _, ?_⟩
  · rw [lineCount_ofText]
    exact hlt
  · rw [Nat.add_sub_cancel, Nat.add_sub_cancel, width_eq hplace.piece_eq]
    exact Nat.min_le_right _ _

/-! ## Terminators -/

theorem Place.terminatorBefore_of_pos (h : Place text offset line column piece)
    (hcolumn : 0 < column) : terminatorBefore text offset = 0 := by
  have hoffset := h.offset_eq
  have hle := h.column_le
  have hearlier : Place text (offset - 1) line (column - 1) piece :=
    ⟨h.piece_eq, by omega, by omega⟩
  rw [terminatorBefore, if_neg]
  rintro ⟨_, hbreak⟩
  have hend := (hearlier.charAt?_eq_break_iff.1 hbreak).1
  omega

/-- Before the start of a line come the content of the line above and its terminator. -/
theorem Place.start_add_width (h : Place text offset (line + 1) 0 piece) :
    units (before text line) + (ofText text).width line =
      offset - terminatorBefore text offset := by
  obtain ⟨hlt, _⟩ := List.getElem?_eq_some_iff.1 h.piece_eq
  obtain ⟨above, habove⟩ : ∃ above, (pieces text)[line]? = some above :=
    ⟨_, List.getElem?_eq_getElem (Nat.lt_of_succ_lt hlt)⟩
  have hstart : before text (line + 1) = before text line ++ above ++ ['\n'] :=
    Text.leading_succ habove
  have hoffset := h.offset_eq
  rw [hstart, Text.units_append, Text.units_append, Text.units_break] at hoffset
  have hbreak : Place text (offset - 1) line (units above) above :=
    ⟨habove, Nat.le_refl _, by omega⟩
  have hnot : decide (line + 1 = (pieces text).length) = false := by
    simpa using Nat.ne_of_lt hlt
  have hpair : InsidePair text (offset - 1) ↔ above.getLast? = some '\r' := by
    simp [hbreak.insidePair_iff, hlt]
  rw [terminatorBefore, if_pos ⟨by omega, hbreak.charAt?_eq_break_iff.2 ⟨rfl, hlt⟩⟩,
    width_eq habove, units_contentOf, hnot]
  by_cases hreturn : above.getLast? = some '\r'
  · have hpos : 0 < units above := by
      obtain ⟨content, rfl⟩ := List.getLast?_eq_some_iff.1 hreturn
      simp
    rw [if_pos ⟨rfl, hreturn⟩, if_pos (hpair.2 hreturn)]
    omega
  · rw [if_neg fun h => hreturn h.2, if_neg fun h => hreturn (hpair.1 h)]
    omega

/-- Before the start of a line, the end of the line above leads back over its terminator. -/
theorem Place.offset?_end_above (h : Place text offset (line + 1) 0 piece) :
    (ofText text).offset? ⟨line, (ofText text).width line⟩ =
      some (offset - terminatorBefore text offset) := by
  obtain ⟨hlt, _⟩ := List.getElem?_eq_some_iff.1 h.piece_eq
  have habove : (pieces text)[line]? = some (pieces text)[line] :=
    List.getElem?_eq_getElem (Nat.lt_of_succ_lt hlt)
  rw [← h.start_add_width]
  simp [LineIndex.offset?, getElem?_lines habove]

end

/-! ## Ends -/

section

variable {index : LineIndex} {start stop : LineColumn}

theorem contains_endBefore (hstop : index.Contains (stop.line + 1) (stop.column + 1)) :
    index.Contains ((Position.endBefore index start stop).line + 1)
      ((Position.endBefore index start stop).column + 1) := by
  have hline := hstop.line_le
  rw [Position.endBefore_eq]
  split
  · exact ⟨Nat.le_add_left 1 _, by dsimp only; omega, Nat.le_add_left 1 _, Nat.le_refl _⟩
  · exact hstop

theorem notAfter_endBefore (hstart : start.column ≤ index.width start.line)
    (h : NotAfter start stop) : NotAfter start (Position.endBefore index start stop) := by
  rw [Position.endBefore_eq]
  split
  · rename_i hmoved
    simp only [Bool.and_eq_true, decide_eq_true_eq] at hmoved
    rcases Nat.lt_or_eq_of_le (Nat.le_pred_of_lt hmoved.1) with hlt | heq
    · exact .inl hlt
    · exact .inr ⟨heq, by rw [heq] at hstart; exact hstart⟩
  · exact h

end

/-- The end of a span leads back to its offset, less a terminator when it is on a later line. -/
theorem offset?_endBefore (text : List Char) (start : LineColumn) {offset : Nat}
    (hoffset : offset ≤ units text) (hpair : ¬InsidePair text offset) :
    (ofText text).offset?
        (Position.endBefore (ofText text) start ((ofText text).lineColumn offset)) =
      some (if start.line < breaksBefore text offset then offset - terminatorBefore text offset
        else offset) := by
  obtain ⟨line, column, piece, hplace⟩ := exists_place hoffset
  have hback := offset?_lineColumn text offset
  rw [if_neg (Nat.not_lt.2 hoffset), if_neg hpair] at hback
  have hshown := hplace.start_add_column
  rw [if_neg hpair] at hshown
  rw [hplace.lineColumn] at hback ⊢
  rw [Position.endBefore_eq, hplace.breaksBefore]
  by_cases hlater : start.line < line
  · rw [if_pos hlater]
    by_cases hzero : min column
        (units (contentOf piece (decide (line + 1 = (pieces text).length)))) = 0
    · obtain ⟨above, rfl⟩ : ∃ above, line = above + 1 := ⟨line - 1, by omega⟩
      rw [hzero, Nat.add_zero] at hshown
      have hstart : Place text offset (above + 1) 0 piece :=
        ⟨hplace.piece_eq, Nat.zero_le _, hshown⟩
      rw [if_pos (by simp [hlater, hzero]), ← hstart.offset?_end_above]
      rfl
    · rw [if_neg (by simp [hzero]), hback, hplace.terminatorBefore_of_pos (by omega),
        Nat.sub_zero]
  · rw [if_neg (by simp [hlater]), if_neg hlater, hback]

/-! ## The context -/

theorem exists_lineText? {text : List Char} {line : Nat} (h : line < (ofText text).lineCount) :
    ∃ content, (ofText text).lineText? line text = some content := by
  rw [lineCount_ofText] at h
  exact ⟨_, by rw [lineText?_ofText, List.getElem?_eq_getElem h, Option.map_some]⟩

end LineIndex

namespace Position

open LineIndex (NotAfter)
open Text (units breaksBefore InsidePair terminatorBefore)

def first (position : Position) : LineColumn :=
  ⟨position.line - 1, position.column - 1⟩

def last (position : Position) : LineColumn :=
  ⟨position.endLine - 1, position.endColumn - 1⟩

theorem endBefore_self (index : LineIndex) (place : LineColumn) :
    endBefore index place place = place := by
  simp [endBefore_eq]

theorem map_number_contextAround (text : List Char) (line context : Nat) :
    (contextAround (LineIndex.ofText text) text line context).map (·.number) =
      List.range' (line - context + 1)
        (min (line + context) ((LineIndex.ofText text).lineCount - 1) + 1 -
          (line - context)) := by
  have hpos := LineIndex.lineCount_pos text
  have hshown : ∀ shown ∈ List.range' (line - context)
      (min (line + context) ((LineIndex.ofText text).lineCount - 1) + 1 - (line - context)),
      (((LineIndex.ofText text).lineText? shown text).map fun content =>
        (⟨shown + 1, String.ofList content⟩ : ContextLine)).map (·.number) =
          some (shown + 1) := by
    intro shown hmem
    have hbounds := List.mem_range'_1.1 hmem
    have hlt : shown < (LineIndex.ofText text).lineCount := by omega
    obtain ⟨content, hcontent⟩ := LineIndex.exists_lineText? hlt
    rw [hcontent]
    rfl
  rw [contextAround, List.map_filterMap, List.filterMap_congr hshown, List.range'_succ_left]
  exact congrFun List.filterMap_eq_map _

theorem lineText?_of_mem_contextAround {index : LineIndex} {text : List Char}
    {line context : Nat} {shown : ContextLine} (h : shown ∈ contextAround index text line context) :
    index.lineText? (shown.number - 1) text = some shown.text.toList := by
  obtain ⟨number, _, hshown⟩ := List.mem_filterMap.1 h
  obtain ⟨content, hcontent, rfl⟩ := Option.map_eq_some_iff.1 hshown
  simp [hcontent]

section

variable (text : List Char) (span : Span) (context : Nat)

theorem first_resolve :
    (resolve text span context).first = (LineIndex.ofText text).lineColumn span.start := by
  rw [resolve_eq]
  rfl

theorem last_resolve :
    (resolve text span context).last =
      endBefore (LineIndex.ofText text) ((LineIndex.ofText text).lineColumn span.start)
        ((LineIndex.ofText text).lineColumn span.stop) := by
  rw [resolve_eq]
  rfl

theorem contains_resolve_start :
    (LineIndex.ofText text).Contains (resolve text span context).line
      (resolve text span context).column := by
  rw [resolve_eq]
  exact LineIndex.contains_lineColumn text span.start

theorem contains_resolve_end :
    (LineIndex.ofText text).Contains (resolve text span context).endLine
      (resolve text span context).endColumn := by
  rw [resolve_eq]
  exact LineIndex.contains_endBefore (LineIndex.contains_lineColumn text span.stop)

/-! ## Both ends -/

theorem notAfter_resolve {span : Span} (h : span.start ≤ span.stop) :
    NotAfter ⟨(resolve text span context).line, (resolve text span context).column⟩
      ⟨(resolve text span context).endLine, (resolve text span context).endColumn⟩ := by
  have hstart := LineIndex.contains_lineColumn text span.start
  have horder :=
    LineIndex.notAfter_endBefore hstart.column_le (LineIndex.notAfter_lineColumn text h)
  rw [resolve_eq]
  rcases horder with hlt | ⟨heq, hle⟩
  · exact .inl (Nat.succ_lt_succ hlt)
  · exact .inr ⟨congrArg (· + 1) heq, Nat.succ_le_succ hle⟩

theorem resolve_of_start_eq_stop {span : Span} (h : span.start = span.stop) :
    ((resolve text span context).line, (resolve text span context).column) =
      ((resolve text span context).endLine, (resolve text span context).endColumn) := by
  rw [resolve_eq, ← h]
  dsimp only
  rw [endBefore_self]

theorem offset?_first_resolve (hpair : ¬InsidePair text (min span.start (units text))) :
    (LineIndex.ofText text).offset? (resolve text span context).first =
      some (min span.start (units text)) := by
  have hback := LineIndex.offset?_lineColumn text (min span.start (units text))
  rw [if_neg (Nat.not_lt.2 (Nat.min_le_right _ _)), if_neg hpair, LineIndex.lineColumn_min] at hback
  rw [first_resolve]
  exact hback

theorem offset?_last_resolve (hpair : ¬InsidePair text (min span.stop (units text))) :
    (LineIndex.ofText text).offset? (resolve text span context).last =
      some (if breaksBefore text (min span.start (units text)) <
          breaksBefore text (min span.stop (units text))
        then min span.stop (units text) - terminatorBefore text (min span.stop (units text))
        else min span.stop (units text)) := by
  have hback := LineIndex.offset?_endBefore text ((LineIndex.ofText text).lineColumn span.start)
    (Nat.min_le_right span.stop _) hpair
  rw [LineIndex.lineColumn_min, LineIndex.line_lineColumn] at hback
  rw [last_resolve]
  exact hback

/-! ## Shown lines -/

theorem map_number_resolve :
    (resolve text span context).contextLines.map (·.number) =
      List.range' (max 1 ((resolve text span context).line - context))
        (min (LineIndex.ofText text).lineCount ((resolve text span context).line + context) + 1 -
          max 1 ((resolve text span context).line - context)) := by
  have hle := (contains_resolve_start text span context).line_le
  rw [resolve_eq] at hle ⊢
  dsimp only at hle ⊢
  rw [map_number_contextAround]
  congr 1 <;> omega

theorem lineText?_of_mem_resolve {shown : ContextLine}
    (h : shown ∈ (resolve text span context).contextLines) :
    (LineIndex.ofText text).lineText? (shown.number - 1) text = some shown.text.toList := by
  rw [resolve_eq] at h
  exact lineText?_of_mem_contextAround h

/-- The line that a position starts on is among those shown. -/
theorem exists_targetLine?_resolve :
    ∃ target, (resolve text span context).targetLine? = some target ∧
      target.number = (resolve text span context).line := by
  have hinside := contains_resolve_start text span context
  have hone := hinside.one_le_line
  have hle := hinside.line_le
  have hmem : (resolve text span context).line ∈
      (resolve text span context).contextLines.map (·.number) := by
    rw [map_number_resolve, List.mem_range'_1]
    omega
  obtain ⟨shown, hshown, hnumber⟩ := List.mem_map.1 hmem
  have hsome : ((resolve text span context).contextLines.find?
      (·.number == (resolve text span context).line)).isSome :=
    List.find?_isSome.2 ⟨shown, hshown, by simpa using hnumber⟩
  obtain ⟨target, htarget⟩ := Option.isSome_iff_exists.1 hsome
  exact ⟨target, htarget, by simpa using List.find?_some htarget⟩

end

/--
A position is inside its text and says where the span lies.

It leads back to the ends of the span as far as the text reaches, where no end is inside `\r\n`;
an end on a later line is taken back over the terminator before it.  The context has every line
that is near enough.
-/
theorem resolve_faithful (text : List Char) {span : Span} (h : span.start ≤ span.stop)
    (context : Nat) :
    let index := LineIndex.ofText text
    let position := resolve text span context
    let start := min span.start (units text)
    let stop := min span.stop (units text)
    let firstShown := max 1 (position.line - context)
    let lastShown := min index.lineCount (position.line + context)
    NotAfter ⟨position.line, position.column⟩ ⟨position.endLine, position.endColumn⟩ ∧
      index.Contains position.line position.column ∧
      index.Contains position.endLine position.endColumn ∧
      (¬InsidePair text start → index.offset? position.first = some start) ∧
      (¬InsidePair text stop → index.offset? position.last =
        some (if breaksBefore text start < breaksBefore text stop
          then stop - terminatorBefore text stop else stop)) ∧
      (span.start = span.stop →
        (position.line, position.column) = (position.endLine, position.endColumn)) ∧
      position.contextLines.map (·.number) =
        List.range' firstShown (lastShown + 1 - firstShown) ∧
      (∀ shown ∈ position.contextLines,
        index.lineText? (shown.number - 1) text = some shown.text.toList) ∧
      ∃ target, position.targetLine? = some target ∧ target.number = position.line := by
  intro index position start stop firstShown lastShown
  refine ⟨notAfter_resolve text context h, contains_resolve_start text span context,
    contains_resolve_end text span context, offset?_first_resolve text span context,
    offset?_last_resolve text span context, resolve_of_start_eq_stop text context,
    map_number_resolve text span context, ?_, exists_targetLine?_resolve text span context⟩
  intro shown hmem
  exact lineText?_of_mem_resolve text span context hmem

/-- A span of a `\r\n` and an empty line ends on the empty line, before its terminator. -/
theorem resolve_faithful_empty_line :
    let text := ['a', '\r', '\n', '\r', '\n', '𝒳']
    let span : Span := ⟨1, 5⟩
    let position := resolve text span 1
    span.start ≤ span.stop ∧ ¬InsidePair text 5 ∧ terminatorBefore text 5 = 2 ∧
      (position.line, position.column, position.endLine, position.endColumn) = (1, 2, 2, 1) ∧
      (LineIndex.ofText text).offset? position.last = some 3 ∧
      position.contextLines.map (·.number) = [1, 2] := by
  intro text span position
  have hspan : span.start ≤ span.stop := by decide
  have hpair : ¬InsidePair text 5 := by decide
  have hfaithful := resolve_faithful text hspan 1
  exact ⟨hspan, hpair, by decide, by decide, hfaithful.2.2.2.2.1 hpair,
    hfaithful.2.2.2.2.2.2.1⟩

end Position

end ScopedCheck

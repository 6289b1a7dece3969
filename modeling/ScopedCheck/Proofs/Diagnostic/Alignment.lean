import Mathlib.Data.List.Forall2
import ScopedCheck.Proofs.Source.Resolution
import ScopedCheck.Proofs.Text.Columns

/-!
# Rows and marks of a block

The rows of a block have their bars in one column.  Below the row of the line
that a span starts on stand its marks: a blank under every character that starts
before the span, then a caret under every character that starts inside it.
-/

namespace ScopedCheck

namespace Text

/-- Whether a row is a text without some of the blanks at the end of the text. -/
def IsTrimOf (row text : List Char) : Prop :=
  ∃ blanks, text = row ++ blanks ∧ ∀ c ∈ blanks, isBlank c = true

theorem isTrimOf_trimEnd (text : List Char) : IsTrimOf (trimEnd text) text := by
  refine ⟨(text.reverse.takeWhile isBlank).reverse, ?_, ?_⟩
  · rw [trimEnd, trimStart, ← List.reverse_append, List.takeWhile_append_dropWhile,
      List.reverse_reverse]
  · intro c hmem
    exact List.all_eq_true.1 List.all_takeWhile c (List.mem_reverse.1 hmem)

theorem trimEnd_append_of_not_blank (text : List Char) {c : Char} (h : isBlank c = false) :
    trimEnd (text ++ [c]) = text ++ [c] := by
  simp [trimEnd, trimStart, h]

end Text

namespace Block

open Text (IsTrimOf boundary joinWith placed trimEnd units)

/-! ## Marks -/

/--
What marks the columns of a line from `start` to before `stop`.

Each character that starts before `start` has a blank below it, a tab where it is a tab; each one
that starts in between has a caret, and there is at least one.
-/
def marksUnder (line : List Char) (start stop : Nat) : List Char :=
  ((placed 0 line).filter (·.1 < start)).map (fun place => if place.2 = '\t' then '\t' else ' ') ++
    List.replicate
      (max 1 ((placed 0 line).countP fun place => start ≤ place.1 ∧ place.1 < stop)) '^'

theorem marker_eq {line : List Char} {width : Nat} (h : units line ≤ width)
    (position : Position) :
    marker line position = marksUnder line (position.column - 1)
      (if position.endLine = position.line then position.endColumn - 1 else width) := by
  have hstop : (if position.endLine = position.line then boundary line (position.endColumn - 1)
      else line.length) = boundary line
        (if position.endLine = position.line then position.endColumn - 1 else width) := by
    split
    · rfl
    · exact (Text.boundary_of_units_le h).symm
  have hbefore := Text.map_snd_filter_placed line 0 (position.column - 1)
  rw [Nat.sub_zero] at hbefore
  rw [marker, hstop, marksUnder, Text.boundary_sub_boundary, ← hbefore, List.map_map]
  rfl

theorem exists_marksUnder (line : List Char) (start stop : Nat) :
    ∃ before, marksUnder line start stop = before ++ ['^'] := by
  obtain ⟨more, hmore⟩ : ∃ more, max 1
      ((placed 0 line).countP fun place => start ≤ place.1 ∧ place.1 < stop) = more + 1 :=
    Nat.exists_eq_succ_of_ne_zero (by omega)
  rw [marksUnder, hmore, List.replicate_succ', ← List.append_assoc]
  exact ⟨_, rfl⟩

/-! ## The gutter -/

theorem toList_toString (n : Nat) : (toString n).toList = numberText n :=
  Nat.toList_repr

/-- The widest number fills the gutter. -/
theorem foldl_max_numberText (lines : List ContextLine) (width : Nat) :
    let widest := lines.foldl (fun width line => max width (numberText line.number).length) width
    width ≤ widest ∧ (∀ line ∈ lines, (numberText line.number).length ≤ widest) ∧
      (widest = width ∨ ∃ line ∈ lines, (numberText line.number).length = widest) := by
  induction lines generalizing width with
  | nil => simp
  | cons line rest ih =>
      obtain ⟨hfirst, hrest, hreached⟩ := ih (max width (numberText line.number).length)
      simp only [List.foldl_cons, List.mem_cons, forall_eq_or_imp, exists_eq_or_imp]
      refine ⟨by omega, ⟨by omega, hrest⟩, ?_⟩
      rcases hreached with heq | hlater
      · rcases Nat.le_total (numberText line.number).length width with hle | hge
        · exact .inl (by omega)
        · exact .inr (.inl (by omega))
      · exact .inr (.inr hlater)

theorem length_numberText_le_gutterWidth {lines : List ContextLine} {line : ContextLine}
    (h : line ∈ lines) : (numberText line.number).length ≤ gutterWidth lines :=
  (foldl_max_numberText lines 1).2.1 line h

theorem exists_length_eq_gutterWidth {lines : List ContextLine} (h : lines ≠ []) :
    ∃ line ∈ lines, (numberText line.number).length = gutterWidth lines := by
  obtain ⟨line, hmem⟩ := List.exists_mem_of_ne_nil lines h
  rcases (foldl_max_numberText lines 1).2.2 with hone | hfound
  · have hle := length_numberText_le_gutterWidth hmem
    have hpos : 0 < (numberText line.number).length := Nat.length_toDigits_pos
    have hwidth : gutterWidth lines = 1 := hone
    exact ⟨line, hmem, by omega⟩
  · exact hfound

/-! ## Rows -/

theorem toList_place (position : Position) :
    ("  --> " ++ toString position.line ++ ":" ++ toString position.column).toList =
      placeRow position := by
  simp [placeRow, ← toList_toString]

/-- A row with the number of a line right before a bar in column `bar`, and the line after it. -/
def IsRow (bar : Nat) (line : ContextLine) (row : List Char) : Prop :=
  ∃ indent, indent + (toString line.number).length + 1 = bar ∧
    IsTrimOf row (List.replicate indent ' ' ++ (toString line.number).toList ++ [' ', '|', ' '] ++
      line.text.toList)

theorem row_eq (width : Nat) (gutter text : List Char) :
    row width gutter text = List.replicate (2 + (width - gutter.length)) ' ' ++ gutter ++
      [' ', '|', ' '] ++ text := by
  simp [row, Text.padLeft, List.replicate_add, List.replicate_succ]

theorem isRow_trimEnd_row {width : Nat} {line : ContextLine}
    (h : (numberText line.number).length ≤ width) :
    IsRow (width + 3) line (trimEnd (row width (numberText line.number) line.text.toList)) := by
  refine ⟨2 + (width - (numberText line.number).length), ?_, ?_⟩
  · rw [← String.length_toList, toList_toString]
    omega
  · rw [toList_toString, ← row_eq]
    exact Text.isTrimOf_trimEnd _

theorem trimEnd_row_marksUnder (width : Nat) (line : List Char) (start stop : Nat) :
    trimEnd (row width [] (marksUnder line start stop)) =
      List.replicate (width + 3) ' ' ++ ['|', ' '] ++ marksUnder line start stop := by
  obtain ⟨before, hmarks⟩ := exists_marksUnder line start stop
  have hindent : List.replicate (width + 3) ' ' = List.replicate (2 + width) ' ' ++ [' '] := by
    rw [← List.replicate_succ', Nat.add_comm 2]
  have hrow : row width [] (marksUnder line start stop) =
      List.replicate (width + 3) ' ' ++ ['|', ' '] ++ before ++ ['^'] := by
    simp [row_eq, hmarks, hindent]
  rw [hrow, Text.trimEnd_append_of_not_blank _ (by decide), hmarks]
  simp only [List.append_assoc]

/-! ## Displays -/

/-- The rows of a block: two above the context, and those of the context with the marks. -/
structure Display where
  heading : List Char
  place : List Char
  above : List (List Char)
  target : List Char
  marks : List Char
  below : List (List Char)

def Display.text (display : Display) : List Char :=
  joinWith ['\n'] (display.heading :: display.place ::
    (display.above ++ display.target :: display.marks :: display.below))

/-- A display of a message at a position, with bars in one column and marks below one row. -/
structure Display.Shows (display : Display) (message : Message) (position : Position)
    (bar : Nat) (marks : List Char) : Prop where
  heading : IsTrimOf display.heading message.flatten.toList
  place : IsTrimOf display.place
    ("  --> " ++ toString position.line ++ ":" ++ toString position.column).toList
  context : ∃ above target below, position.contextLines = above ++ target :: below ∧
    position.targetLine? = some target ∧
    (∀ line ∈ above, line.number < position.line) ∧
    (∀ line ∈ below, position.line < line.number) ∧
    List.Forall₂ (IsRow bar) above display.above ∧ IsRow bar target display.target ∧
    List.Forall₂ (IsRow bar) below display.below
  marks : display.marks = List.replicate bar ' ' ++ ['|', ' '] ++ marks
  widest : ∃ line ∈ position.contextLines, bar = (toString line.number).length + 3

theorem exists_split {position : Position} {target : ContextLine}
    (horder : (position.contextLines.map (·.number)).Pairwise (· < ·))
    (htarget : position.targetLine? = some target) :
    target.number = position.line ∧
      ∃ above below, position.contextLines = above ++ target :: below ∧
        (∀ line ∈ above, line.number < position.line) ∧
        ∀ line ∈ below, position.line < line.number := by
  have hnumber : target.number = position.line := by simpa using List.find?_some htarget
  obtain ⟨above, below, hsplit⟩ := List.append_of_mem (List.mem_of_find?_eq_some htarget)
  rw [hsplit, List.pairwise_map, List.pairwise_append, List.pairwise_cons] at horder
  refine ⟨hnumber, above, below, hsplit, ?_, ?_⟩
  · intro line hmem
    have hlt := horder.2.2 line hmem target List.mem_cons_self
    omega
  · intro line hmem
    have hlt := horder.2.1.1 line hmem
    omega

theorem flatMap_rowsOf_of_ne {width : Nat} {position : Position} {lines : List ContextLine}
    (h : ∀ line ∈ lines, line.number ≠ position.line) :
    lines.flatMap (rowsOf width position) =
      lines.map fun line => row width (numberText line.number) line.text.toList := by
  induction lines with
  | nil => rfl
  | cons line rest ih =>
      have hfirst := h line List.mem_cons_self
      rw [List.flatMap_cons, List.map_cons, ih fun other hmem =>
        h other (List.mem_cons_of_mem line hmem), rowsOf, if_neg hfirst]
      rfl

theorem flatMap_rowsOf_split {width : Nat} {position : Position} {above below : List ContextLine}
    {target : ContextLine} (hnumber : target.number = position.line)
    (habove : ∀ line ∈ above, line.number < position.line)
    (hbelow : ∀ line ∈ below, position.line < line.number) :
    (above ++ target :: below).flatMap (rowsOf width position) =
      (above.map fun line => row width (numberText line.number) line.text.toList) ++
        row width (numberText target.number) target.text.toList ::
          row width [] (marker target.text.toList position) ::
            below.map fun line => row width (numberText line.number) line.text.toList := by
  rw [List.flatMap_append, List.flatMap_cons,
    flatMap_rowsOf_of_ne fun line hmem => Nat.ne_of_lt (habove line hmem),
    flatMap_rowsOf_of_ne fun line hmem => (Nat.ne_of_lt (hbelow line hmem)).symm,
    rowsOf, if_pos hnumber]
  rfl

theorem forall₂_isRow {width : Nat} {lines : List ContextLine}
    (h : ∀ line ∈ lines, (numberText line.number).length ≤ width) :
    List.Forall₂ (IsRow (width + 3)) lines
      (lines.map fun line => trimEnd (row width (numberText line.number) line.text.toList)) :=
  List.forall₂_map_right_iff.2 (List.forall₂_same.2 fun line hmem => isRow_trimEnd_row (h line hmem))

/-- A block is a display of its message when the context is in order. -/
theorem exists_display (message : Message) {position : Position} {target : ContextLine}
    (horder : (position.contextLines.map (·.number)).Pairwise (· < ·))
    (htarget : position.targetLine? = some target) {width : Nat}
    (hwidth : units target.text.toList ≤ width) :
    ∃ (display : Display) (bar : Nat), (render message position).toList = display.text ∧
      display.Shows message position bar (marksUnder target.text.toList (position.column - 1)
        (if position.endLine = position.line then position.endColumn - 1 else width)) := by
  obtain ⟨hnumber, above, below, hsplit, habove, hbelow⟩ := exists_split horder htarget
  let gutter := gutterWidth position.contextLines
  have hfits : ∀ line ∈ position.contextLines, (numberText line.number).length ≤ gutter :=
    fun _ hmem => length_numberText_le_gutterWidth hmem
  obtain ⟨widest, hmem, hwidest⟩ :=
    exists_length_eq_gutterWidth (List.ne_nil_of_mem (List.mem_of_find?_eq_some htarget))
  have hrows := @flatMap_rowsOf_split gutter position above below target hnumber habove hbelow
  rw [← hsplit] at hrows
  rw [hsplit] at hfits
  refine ⟨⟨trimEnd message.flatten.toList, trimEnd (placeRow position),
    above.map fun line => trimEnd (row gutter (numberText line.number) line.text.toList),
    trimEnd (row gutter (numberText target.number) target.text.toList),
    trimEnd (row gutter [] (marker target.text.toList position)),
    below.map fun line => trimEnd (row gutter (numberText line.number) line.text.toList)⟩,
    gutter + 3, ?_, ?_, ?_, ?_, ?_, ?_⟩
  · rw [render, rows, hrows, String.toList_ofList, Display.text]
    simp only [List.map_append, List.map_cons, List.map_map, List.cons_append,
      List.nil_append]
    rfl
  · exact Text.isTrimOf_trimEnd _
  · rw [toList_place]
    exact Text.isTrimOf_trimEnd _
  · exact ⟨above, target, below, hsplit, htarget, habove, hbelow,
      forall₂_isRow fun line hmem => hfits line (by simp [hmem]),
      isRow_trimEnd_row (hfits target (by simp)),
      forall₂_isRow fun line hmem => hfits line (by simp [hmem])⟩
  · rw [marker_eq hwidth]
    exact trimEnd_row_marksUnder _ _ _ _
  · refine ⟨widest, hmem, ?_⟩
    rw [← String.length_toList, toList_toString, hwidest]

/--
A block shows its span right below the line that it starts on.

The marks stand under the characters of the line; of a `\r` that ends the text nothing is shown,
and so there is no mark for it either.
-/
theorem render_aligned (message : Message) (text : List Char) (span : Span) (context : Nat) :
    let index := LineIndex.ofText text
    let position := Position.resolve text span context
    ∃ (display : Display) (bar : Nat) (content shown : List Char),
      (render message position).toList = display.text ∧
        LineIndex.HasContent text (position.line - 1) content ∧
        shown = (if position.line = index.lineCount then LineIndex.dropLastChar '\r' content
          else content) ∧
        position.targetLine? = some ⟨position.line, String.ofList shown⟩ ∧
        display.Shows message position bar (marksUnder shown (position.column - 1)
          (if position.endLine = position.line then position.endColumn - 1
            else units content)) := by
  intro index position
  have hinside := Position.contains_resolve_start text span context
  have hline : position.line - 1 + 1 = position.line := Nat.sub_add_cancel hinside.one_le_line
  have hlt : position.line - 1 < index.lineCount :=
    Nat.sub_one_lt_of_le hinside.one_le_line hinside.line_le
  obtain ⟨⟨number, line⟩, htarget, hnumber⟩ :=
    Position.exists_targetLine?_resolve text span context
  obtain ⟨content, hcontent, hshown⟩ := LineIndex.exists_content hlt
  have hline? := Position.lineText?_of_mem_resolve text span context
    (List.mem_of_find?_eq_some htarget)
  dsimp only at hnumber hline?
  rw [hline] at hshown
  rw [hnumber] at htarget hline?
  have htext : line.toList = _ := Option.some.inj (hline?.symm.trans hshown)
  have horder : (position.contextLines.map (·.number)).Pairwise (· < ·) := by
    rw [Position.map_number_resolve]
    exact List.pairwise_lt_range' 1
  have hwidth : units line.toList ≤ units content := by
    rw [htext]
    split
    · exact LineIndex.units_dropLastChar_le '\r' content
    · exact Nat.le_refl _
  obtain ⟨display, bar, hdisplay, hshows⟩ := exists_display message horder htarget hwidth
  refine ⟨display, bar, content, line.toList, hdisplay, hcontent, htext, ?_, hshows⟩
  rw [String.ofList_toList]
  exact htarget

/-- The caret of a place behind a `\r` that ends the text is one column off. -/
theorem render_not_aligned_after_return :
    let text := ['a', 'b', 'c', '\r']
    let position := Position.resolve text ⟨4, 4⟩ 0
    LineIndex.HasContent text 0 text ∧ position.column = 5 ∧
      render (.plain "m") position = "m\n  --> 1:5\n  1 | abc\n    |    ^" ∧
      ¬['|', ' '] ++ marksUnder text (position.column - 1) (position.endColumn - 1) <:+:
        (render (.plain "m") position).toList := by
  intro text position
  exact ⟨⟨[], [], rfl, by decide, by decide⟩, by decide, by decide +kernel, by decide +kernel⟩

end Block

end ScopedCheck

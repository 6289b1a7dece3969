import ScopedCheck.Diagnostic.Block
import ScopedCheck.Proofs.Source.RoundTrip

/-!
# Texts with `\r\n` for `\n`

A text shows the same positions and the same lines when its breaks are written
`\r\n`; only the offsets move, by one for every `\r` before them.
-/

namespace ScopedCheck

namespace Text

/-- A text with every `\n` written `\r\n`. -/
def withReturns (text : List Char) : List Char :=
  text.flatMap fun c => if c = '\n' then ['\r', '\n'] else [c]

/-- An offset less one for every pair `\r\n` whose `\r` is before it. -/
def withoutReturns (text : List Char) (offset : Nat) : Nat :=
  offset - Nat.count (fun place => PairAt text place) offset

theorem withReturns_of_not_mem {text : List Char} (h : '\n' ∉ text) : withReturns text = text := by
  induction text with
  | nil => rfl
  | cons c rest ih =>
      rw [List.mem_cons, not_or] at h
      have hrest := ih h.2
      rw [withReturns] at hrest ⊢
      rw [List.flatMap_cons, if_neg (Ne.symm h.1), hrest, List.singleton_append]

theorem withReturns_append_break {line : List Char} (h : '\n' ∉ line) (rest : List Char) :
    withReturns (line ++ '\n' :: rest) = line ++ ['\r'] ++ '\n' :: withReturns rest := by
  have hline := withReturns_of_not_mem h
  simp only [withReturns] at hline ⊢
  simp [hline]

/-- Lines with a `\r` at the end of all but the last. -/
def addReturns : List (List Char) → List (List Char)
  | [] => []
  | line :: rest => (if rest.isEmpty then line else line ++ ['\r']) :: addReturns rest

@[simp] theorem length_addReturns (lines : List (List Char)) :
    (addReturns lines).length = lines.length := by
  induction lines with
  | nil => rfl
  | cons line rest ih => simp [addReturns, ih]

theorem getElem?_addReturns (lines : List (List Char)) (index : Nat) :
    (addReturns lines)[index]? =
      lines[index]?.map fun line => if index + 1 < lines.length then line ++ ['\r'] else line := by
  induction lines generalizing index with
  | nil => rfl
  | cons line rest ih =>
      cases index with
      | zero => cases rest <;> simp [addReturns]
      | succ index => simp [addReturns, ih]

theorem not_mem_of_mem_addReturns {lines : List (List Char)} (h : ∀ line ∈ lines, '\n' ∉ line) :
    ∀ line ∈ addReturns lines, '\n' ∉ line := by
  intro line hmem
  obtain ⟨index, hindex⟩ := List.mem_iff_getElem?.1 hmem
  rw [getElem?_addReturns] at hindex
  obtain ⟨plain, hplain, rfl⟩ := Option.map_eq_some_iff.1 hindex
  have hnot := h plain (List.mem_of_getElem? hplain)
  split <;> simpa using hnot

theorem withReturns_joinWith {lines : List (List Char)} (h : ∀ line ∈ lines, '\n' ∉ line) :
    withReturns (joinWith ['\n'] lines) = joinWith ['\n'] (addReturns lines) := by
  induction lines with
  | nil => rfl
  | cons line rest ih =>
      have hline := h line List.mem_cons_self
      have hrest := ih fun other hmem => h other (List.mem_cons_of_mem line hmem)
      cases rest with
      | nil => simpa [joinWith, addReturns] using withReturns_of_not_mem hline
      | cons next more =>
          have hjoin : joinWith ['\n'] (line :: next :: more) =
              line ++ '\n' :: joinWith ['\n'] (next :: more) := by simp [joinWith]
          rw [hjoin, withReturns_append_break hline, hrest]
          simp [joinWith, addReturns]

theorem splitAt_withReturns (text : List Char) :
    splitAt '\n' (withReturns text) = addReturns (splitAt '\n' text) := by
  have hlines : ∀ line ∈ splitAt '\n' text, '\n' ∉ line :=
    fun _ hmem => not_mem_of_mem_splitAt hmem
  have hne : addReturns (splitAt '\n' text) ≠ [] := by
    have hpos := List.length_pos_iff.2 (splitAt_ne_nil '\n' text)
    exact List.length_pos_iff.1 (by rwa [length_addReturns])
  calc
    splitAt '\n' (withReturns text)
        = splitAt '\n' (withReturns (joinWith ['\n'] (splitAt '\n' text))) := by
          rw [joinWith_splitAt]
    _ = addReturns (splitAt '\n' text) := by
        rw [withReturns_joinWith hlines, splitAt_joinWith hne (not_mem_of_mem_addReturns hlines)]

/-- A line with returns starts one unit later for every line before it. -/
theorem units_leading_addReturns {lines : List (List Char)} {index : Nat}
    (h : index < lines.length) :
    units (leading '\n' (addReturns lines) index) = units (leading '\n' lines index) + index := by
  induction lines generalizing index with
  | nil => simp at h
  | cons line rest ih =>
      cases index with
      | zero => rfl
      | succ index =>
          have hlt : index < rest.length := by simpa using h
          have hrest := ih hlt
          have hne : rest.isEmpty = false := by
            cases rest with
            | nil => simp at hlt
            | cons next more => rfl
          simp only [addReturns, hne, Bool.false_eq_true, if_false, leading_cons_succ,
            units_append, units, charUnits_return, hrest]
          omega

end Text

namespace LineIndex

open Text (units PairAt InsidePair withReturns withoutReturns)

theorem getElem?_pieces_withReturns (text : List Char) (line : Nat) :
    (pieces (withReturns text))[line]? = (pieces text)[line]?.map fun piece =>
      if line + 1 < (pieces text).length then piece ++ ['\r'] else piece := by
  rw [pieces, Text.splitAt_withReturns, Text.getElem?_addReturns]

theorem length_pieces_withReturns (text : List Char) :
    (pieces (withReturns text)).length = (pieces text).length := by
  rw [pieces, Text.splitAt_withReturns, Text.length_addReturns]

theorem lineCount_withReturns (text : List Char) :
    (ofText (withReturns text)).lineCount = (ofText text).lineCount := by
  rw [lineCount_ofText, lineCount_ofText, length_pieces_withReturns]

theorem units_before_withReturns {text : List Char} {line : Nat}
    (h : line < (pieces text).length) :
    units (before (withReturns text) line) = units (before text line) + line := by
  rw [before, pieces, Text.splitAt_withReturns, Text.units_leading_addReturns h]

/-! ## Content -/

section

variable {text piece : List Char} {line : Nat}

theorem contentOf_withReturns (piece : List Char) {line count : Nat} (h : line < count) :
    contentOf (if line + 1 < count then piece ++ ['\r'] else piece)
      (decide (line + 1 = count)) = piece := by
  by_cases hlt : line + 1 < count
  · simp [contentOf, hlt, Nat.ne_of_lt hlt, dropLastChar_append]
  · have hlast : line + 1 = count := by omega
    simp [contentOf, hlast]

/-- Without a pair in the text only its last line may end with `\r`. -/
theorem getLast?_ne_return (hnone : ¬['\r', '\n'] <:+: text)
    (h : (pieces text)[line]? = some piece) (hlt : line + 1 < (pieces text).length) :
    piece.getLast? ≠ some '\r' := by
  intro hlast
  obtain ⟨content, rfl⟩ := List.getLast?_eq_some_iff.1 hlast
  obtain ⟨after, htext, ⟨hend, _⟩ | ⟨_, rest, rfl⟩⟩ := exists_after h
  · omega
  · apply hnone
    refine ⟨before text line ++ content, rest, ?_⟩
    simpa using htext.symm

theorem contentOf_of_not_pair (hnone : ¬['\r', '\n'] <:+: text)
    (h : (pieces text)[line]? = some piece) :
    contentOf piece (decide (line + 1 = (pieces text).length)) = piece := by
  obtain ⟨hlt, _⟩ := List.getElem?_eq_some_iff.1 h
  by_cases hlast : line + 1 = (pieces text).length
  · simp [contentOf, hlast]
  · have hne := getLast?_ne_return hnone h (by omega)
    simp [contentOf, hlast, dropLastChar_of_ne hne]

end

def width (index : LineIndex) (line : Nat) : Nat :=
  (index.lines.getD line default).stop - (index.lines.getD line default).start

theorem width_withReturns {text : List Char} (hnone : ¬['\r', '\n'] <:+: text) (line : Nat) :
    (ofText (withReturns text)).width line = (ofText text).width line := by
  unfold width
  cases hpiece : (pieces text)[line]? with
  | none =>
      have hreturns := getElem?_pieces_withReturns text line
      rw [hpiece, Option.map_none] at hreturns
      simp [List.getD_eq_getElem?_getD, getElem?_lines_eq_none hpiece,
        getElem?_lines_eq_none hreturns]
  | some piece =>
      obtain ⟨hlt, _⟩ := List.getElem?_eq_some_iff.1 hpiece
      have hreturns := getElem?_pieces_withReturns text line
      rw [hpiece, Option.map_some] at hreturns
      simp only [List.getD_eq_getElem?_getD, getElem?_lines hpiece, getElem?_lines hreturns,
        Option.getD_some, Nat.add_sub_cancel_left, length_pieces_withReturns,
        contentOf_withReturns piece hlt, contentOf_of_not_pair hnone hpiece]

theorem lineText?_withReturns {text : List Char} (hnone : ¬['\r', '\n'] <:+: text)
    (line : Nat) :
    (ofText (withReturns text)).lineText? line (withReturns text) =
      (ofText text).lineText? line text := by
  rw [lineText?_ofText, lineText?_ofText, getElem?_pieces_withReturns]
  cases hpiece : (pieces text)[line]? with
  | none => rfl
  | some piece =>
      by_cases hlt : line + 1 < (pieces text).length
      · have hne := getLast?_ne_return hnone hpiece hlt
        simp [hlt, dropLastChar_append, dropLastChar_of_ne hne]
      · simp [hlt]

/-! ## Offsets -/

/-- Every break of a text with returns has its `\r`. -/
theorem insidePair_withReturns {text : List Char} {offset : Nat}
    (h : Text.charAt? (withReturns text) offset = some '\n') :
    InsidePair (withReturns text) offset := by
  obtain ⟨line, column, piece, hplace⟩ :=
    exists_place (Nat.le_of_lt (Text.lt_units_of_charAt? h))
  obtain ⟨hend, hlt⟩ := hplace.charAt?_eq_break_iff.1 h
  have hpiece := hplace.piece_eq
  rw [getElem?_pieces_withReturns] at hpiece
  obtain ⟨plain, _, rfl⟩ := Option.map_eq_some_iff.1 hpiece
  refine hplace.insidePair_iff.2 ⟨hend, hlt, ?_⟩
  rw [length_pieces_withReturns] at hlt
  simp [hlt]

theorem pairAt_withReturns_iff (text : List Char) (offset : Nat) :
    PairAt (withReturns text) offset ↔
      Text.charAt? (withReturns text) (offset + 1) = some '\n' := by
  constructor
  · intro hpair
    exact hpair.2
  · intro hbreak
    exact (insidePair_withReturns hbreak).2

/-- The pairs that start before an offset are the breaks up to it. -/
theorem count_pairAt_withReturns (text : List Char) (offset : Nat) :
    Nat.count (fun place => PairAt (withReturns text) place) offset =
      Text.breaksBefore (withReturns text) (offset + 1) := by
  have hfirst : Text.charAt? (withReturns text) 0 ≠ some '\n' := by
    intro hbreak
    exact Nat.lt_irrefl 0 (insidePair_withReturns hbreak).1
  simp only [pairAt_withReturns_iff, Text.breaksBefore, Nat.count_succ', hfirst, if_false,
    Nat.add_zero]

/-- A place among lines with returns is one among the lines without, at most at their ends. -/
theorem Place.withoutReturns {text piece : List Char} {offset line column : Nat}
    (h : Place (withReturns text) offset line column piece) :
    ∃ plain, Place text (withoutReturns (withReturns text) offset) line
        (min column (units plain)) plain ∧
      piece = if line + 1 < (pieces text).length then plain ++ ['\r'] else plain := by
  have hpiece := h.piece_eq
  rw [getElem?_pieces_withReturns] at hpiece
  obtain ⟨plain, hplain, rfl⟩ := Option.map_eq_some_iff.1 hpiece
  obtain ⟨hlt, _⟩ := List.getElem?_eq_some_iff.1 hplain
  refine ⟨plain, ⟨hplain, Nat.min_le_right _ _, ?_⟩, rfl⟩
  have hbreak := h.charAt?_eq_break_iff
  have hoffset := h.offset_eq
  have hcolumn := h.column_le
  rw [units_before_withReturns hlt] at hoffset
  rw [length_pieces_withReturns] at hbreak
  rw [Text.withoutReturns, count_pairAt_withReturns, Text.breaksBefore_succ, h.breaksBefore]
  by_cases hinner : line + 1 < (pieces text).length
  · simp only [hinner, if_true, and_true, Text.units_append, Text.units_return] at hbreak hcolumn
    by_cases hend : column = units plain + 1
    · rw [if_pos (hbreak.2 hend)]
      omega
    · rw [if_neg fun hat => hend (hbreak.1 hat)]
      omega
  · simp only [hinner, if_false, and_false, iff_false] at hbreak hcolumn
    rw [if_neg hbreak]
    omega

/-- The end of a text with returns belongs to the end of the text, and what is past it stays so. -/
theorem units_le_withoutReturns {text : List Char} {offset : Nat}
    (h : units (withReturns text) ≤ offset) :
    units text ≤ withoutReturns (withReturns text) offset := by
  obtain ⟨past, rfl⟩ := Nat.exists_eq_add_of_le h
  obtain ⟨line, column, piece, hplace⟩ := exists_place (Nat.le_refl (units (withReturns text)))
  obtain ⟨plain, hplain, rfl⟩ := hplace.withoutReturns
  obtain ⟨hend, hlast⟩ := hplace.eq_end
  rw [length_pieces_withReturns] at hlast
  rw [if_neg (by omega)] at hend
  have hunits := units_eq_of_last hplain.piece_eq hlast
  have hoffset := hplain.offset_eq
  have hpast : Nat.count (fun place =>
      PairAt (withReturns text) (units (withReturns text) + place)) past ≤ past :=
    Nat.count_le _
  rw [hend, Nat.min_self] at hoffset
  rw [Text.withoutReturns] at hoffset ⊢
  rw [Nat.count_add]
  omega

theorem lineColumn_of_units_le {text : List Char} {offset : Nat} (h : units text ≤ offset) :
    (ofText text).lineColumn offset = (ofText text).lineColumn (units text) := by
  rw [← lineColumn_min, Nat.min_eq_right h]

/-- An offset resolves among the lines with returns as the one that it belongs to without. -/
theorem lineColumn_withReturns {text : List Char} (hnone : ¬['\r', '\n'] <:+: text)
    (offset : Nat) :
    (ofText (withReturns text)).lineColumn offset =
      (ofText text).lineColumn (withoutReturns (withReturns text) offset) := by
  have hwithin : ∀ offset ≤ units (withReturns text),
      (ofText (withReturns text)).lineColumn offset =
        (ofText text).lineColumn (withoutReturns (withReturns text) offset) := by
    intro offset hle
    obtain ⟨line, column, piece, hplace⟩ := exists_place hle
    obtain ⟨plain, hplain, rfl⟩ := hplace.withoutReturns
    obtain ⟨hlt, _⟩ := List.getElem?_eq_some_iff.1 hplain.piece_eq
    rw [hplace.lineColumn, hplain.lineColumn, length_pieces_withReturns,
      contentOf_withReturns plain hlt, contentOf_of_not_pair hnone hplain.piece_eq]
    simp
  rcases Nat.le_total offset (units (withReturns text)) with hle | hge
  · exact hwithin offset hle
  · rw [lineColumn_of_units_le hge, hwithin _ (Nat.le_refl _),
      lineColumn_of_units_le (units_le_withoutReturns (Nat.le_refl _)),
      lineColumn_of_units_le (units_le_withoutReturns hge)]

end LineIndex

/-! ## What is displayed -/

namespace Position

open Text (withReturns withoutReturns)

theorem endBefore_eq (index : LineIndex) (start stop : LineColumn) :
    endBefore index start stop =
      if start.line < stop.line && stop.column == 0 then
        ⟨stop.line - 1, index.width (stop.line - 1)⟩
      else stop :=
  rfl

/-- Clamping a span changes nothing, since offsets past the end resolve as the end does. -/
theorem resolve_eq (text : List Char) (span : Span) (context : Nat) :
    resolve text span context =
      let index := LineIndex.ofText text
      let start := index.lineColumn span.start
      let stop := endBefore index start (index.lineColumn span.stop)
      { line := start.line + 1
        column := start.column + 1
        endLine := stop.line + 1
        endColumn := stop.column + 1
        contextLines := contextAround index text start.line context } := by
  have hclamp : ∀ offset, (LineIndex.ofText text).lineColumn
      (min offset (LineIndex.ofText text).length) = (LineIndex.ofText text).lineColumn offset :=
    fun offset => LineIndex.lineColumn_min text offset
  simp only [resolve, resolveWith, Span.clamp, hclamp]

theorem contextAround_withReturns {text : List Char} (hnone : ¬['\r', '\n'] <:+: text)
    (line context : Nat) :
    contextAround (LineIndex.ofText (withReturns text)) (withReturns text) line context =
      contextAround (LineIndex.ofText text) text line context := by
  simp only [contextAround, LineIndex.lineCount_withReturns,
    LineIndex.lineText?_withReturns hnone]

/--
A text is displayed in the same way whether its breaks are `\n` or `\r\n`.

The text itself has no `\r\n`.  A span of the text with returns shows the position, the context
and the block of the span whose ends are moved back by the returns before them.
-/
theorem resolve_withReturns {text : List Char} (hnone : ¬['\r', '\n'] <:+: text) (span : Span)
    (context : Nat) (message : Message) :
    let moved : Span := ⟨withoutReturns (withReturns text) span.start,
      withoutReturns (withReturns text) span.stop⟩
    resolve (withReturns text) span context = resolve text moved context ∧
      Block.render message (resolve (withReturns text) span context) =
        Block.render message (resolve text moved context) := by
  intro moved
  have hresolve : resolve (withReturns text) span context = resolve text moved context := by
    simp only [resolve_eq, endBefore_eq, LineIndex.lineColumn_withReturns hnone,
      LineIndex.width_withReturns hnone, contextAround_withReturns hnone, moved]
  exact ⟨hresolve, by rw [hresolve]⟩

/-- A span from an added `\r` to the start of the last line ends on the line before. -/
theorem resolve_withReturns_swallowed :
    let text := ['a', '\n', '\t', '𝒳', '\r', 'b', '\n', 'c']
    let position := resolve (withReturns text) ⟨8, 10⟩ 1
    ¬['\r', '\n'] <:+: text ∧ withoutReturns (withReturns text) 8 = 7 ∧
      withoutReturns (withReturns text) 10 = 8 ∧ position = resolve text ⟨7, 8⟩ 1 ∧
      (position.line, position.column, position.endLine, position.endColumn) = (2, 6, 2, 6) := by
  intro text position
  have hnone : ¬['\r', '\n'] <:+: text := by decide
  have hstart : withoutReturns (withReturns text) 8 = 7 := by decide
  have hstop : withoutReturns (withReturns text) 10 = 8 := by decide
  have hresolve := (resolve_withReturns hnone ⟨8, 10⟩ 1 (.plain "")).1
  rw [hstart, hstop] at hresolve
  exact ⟨hnone, hstart, hstop, hresolve, by decide⟩

end Position

end ScopedCheck

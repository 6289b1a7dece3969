import ScopedCheck.Diagnostic.Block
import ScopedCheck.Proofs.Source.WordIndex

/-!
# Display blocks with words

A column becomes a byte index by a count over the characters before it, and the marker
is measured on slices at such indices.  Here the count and every slice are checked.  For
the position of any span of a text whose length is below the greatest word, nothing
stops on the way from the span to its block.
-/

namespace ScopedCheck

namespace Text

theorem take_append_drop_take (line : List Char) {a b : Nat} (h : a ≤ b) :
    line.take a ++ (line.take b).drop a = line.take b := by
  have htake := List.take_append_drop a (line.take b)
  rwa [List.take_take, Nat.min_eq_left h] at htake

theorem monotone_bytes_take (line : List Char) : Monotone fun count => bytes (line.take count) := by
  intro a b h
  dsimp only
  rw [← take_append_drop_take line h, bytes_append]
  exact Nat.le_add_right _ _

theorem sliceBytes?_take (line : List Char) {a b : Nat} (h : a ≤ b) :
    sliceBytes? line (bytes (line.take a)) (bytes (line.take b)) =
      some ((line.take b).drop a) := by
  have hslice := sliceBytes?_append (line.take a) ((line.take b).drop a) (line.drop b)
  rwa [← List.append_assoc, ← bytes_append, take_append_drop_take line h,
    List.take_append_drop] at hslice

theorem byteIndex_cons_succ (c : Char) (rest : List Char) (column : Nat) :
    byteIndex (c :: rest) (column + 1) =
      c.utf8Size + byteIndex rest (column + 1 - charUnits c) := by
  rw [byteIndex, boundary, Nat.add_comm 1, List.take_succ_cons, bytes, byteIndex]

end Text

namespace Word

open Text (units charUnits)

/-! ## Byte indices -/

/-- Counts on to a column, with `seen` units and `bytes` bytes behind. -/
def byteIndexFrom (column seen bytes : Nat) : List Char → Except Trap Nat
  | [] => .ok bytes
  | c :: rest =>
      if column ≤ seen then .ok bytes
      else do
        let seen ← add seen (charUnits c)
        byteIndexFrom column seen (bytes + c.utf8Size) rest

/-- Byte index of the first character boundary at or past `column`. -/
def byteIndex (line : List Char) (column : Nat) : Except Trap Nat :=
  byteIndexFrom column 0 0 line

theorem byteIndexFrom_eq {line : List Char} {seen : Nat} (h : seen + units line ≤ maxOffset)
    (column bytes : Nat) :
    byteIndexFrom column seen bytes line = .ok (bytes + Text.byteIndex line (column - seen)) := by
  induction line generalizing seen bytes with
  | nil => rfl
  | cons c rest ih =>
      rw [units, ← Nat.add_assoc] at h
      rw [byteIndexFrom]
      by_cases hle : column ≤ seen
      · rw [if_pos hle, Nat.sub_eq_zero_of_le hle]
        rfl
      · obtain ⟨ahead, hahead⟩ : ∃ ahead, column - seen = ahead + 1 :=
          ⟨column - seen - 1, by omega⟩
        rw [if_neg hle, add_of_le (by omega), ok_bind, ih h, hahead, Text.byteIndex_cons_succ,
          Nat.add_assoc, show column - (seen + charUnits c) = ahead + 1 - charUnits c by omega]

theorem byteIndex_eq {line : List Char} (h : units line ≤ maxOffset) (column : Nat) :
    byteIndex line column = .ok (Text.byteIndex line column) := by
  rw [byteIndex, byteIndexFrom_eq (by rwa [Nat.zero_add]), Nat.zero_add, Nat.sub_zero]

/-! ## The marker -/

/-- Byte index where the carets end, before it is moved behind their start. -/
def stopIndex (target : List Char) (position : Position) : Except Trap Nat :=
  if position.endLine = position.line then do
    let column ← sub position.endColumn 1
    byteIndex target column
  else return Text.bytes target

/-- Carets below the span, after padding that keeps the tabs of the line. -/
def marker (target : List Char) (position : Position) : Except Trap (List Char) := do
  let column ← sub position.column 1
  let start ← byteIndex target column
  let stop ← stopIndex target position
  let before ← slice target 0 start
  let marked ← slice target start (max stop start)
  return before.map (fun c => if c = '\t' then '\t' else ' ') ++
    List.replicate (max 1 marked.length) '^'

section

variable {target : List Char} {position : Position}

theorem stopIndex_eq (hunits : units target ≤ maxOffset) (hend : 1 ≤ position.endColumn) :
    stopIndex target position = .ok (Text.bytes (target.take
      (if position.endLine = position.line then Text.boundary target (position.endColumn - 1)
        else target.length))) := by
  rw [stopIndex]
  split
  · rw [sub_of_le hend, ok_bind, byteIndex_eq hunits, Text.byteIndex]
  · rw [List.take_length]
    rfl

theorem marker_eq (hunits : units target ≤ maxOffset) (hcolumn : 1 ≤ position.column)
    (hend : 1 ≤ position.endColumn) :
    marker target position = .ok (Block.marker target position) := by
  rw [marker, sub_of_le hcolumn, ok_bind, byteIndex_eq hunits, ok_bind, stopIndex_eq hunits hend,
    ok_bind, Text.byteIndex, ← (Text.monotone_bytes_take target).map_max, Block.marker]
  have hstop : (if position.endLine = position.line
      then Text.boundary target (position.endColumn - 1) else target.length) ≤ target.length := by
    split
    · exact Text.boundary_le_length target _
    · exact Nat.le_refl _
  have hstart := Text.boundary_le_length target (position.column - 1)
  generalize Text.boundary target (position.column - 1) = start at hstart ⊢
  generalize (if position.endLine = position.line
    then Text.boundary target (position.endColumn - 1) else target.length) = stop at hstop ⊢
  have hbefore : slice target 0 (Text.bytes (target.take start)) = .ok (target.take start) :=
    slice_of_sliceBytes? (Text.sliceBytes?_take target (Nat.zero_le start))
  have hmarked := slice_of_sliceBytes? (Text.sliceBytes?_take target (Nat.le_max_right stop start))
  have hlength : ((target.take (max stop start)).drop start).length = stop - start := by
    rw [List.length_drop, List.length_take]
    omega
  rw [hbefore, ok_bind, hmarked, ok_bind, hlength]
  rfl

end

/-! ## The block -/

def rowsOf (width : Nat) (position : Position) (line : ContextLine) :
    Except Trap (List (List Char)) :=
  let content := line.text.toList
  let shown := Block.row width (Block.numberText line.number) content
  if line.number = position.line then do
    let marks ← marker content position
    return [shown, Block.row width [] marks]
  else return [shown]

def render (message : Message) (position : Position) : Except Trap String := do
  let shown ← position.contextLines.mapM
    (rowsOf (Block.gutterWidth position.contextLines) position)
  let rows := [message.flatten.toList, Block.placeRow position] ++ shown.flatten
  return String.ofList (Text.joinWith ['\n'] (rows.map Text.trimEnd))

section

variable {position : Position}

theorem rowsOf_eq (width : Nat) {line : ContextLine} (hunits : units line.text.toList ≤ maxOffset)
    (hcolumn : 1 ≤ position.column) (hend : 1 ≤ position.endColumn) :
    rowsOf width position line = .ok (Block.rowsOf width position line) := by
  rw [rowsOf, Block.rowsOf]
  split
  · rw [marker_eq hunits hcolumn hend, ok_bind]
    rfl
  · rfl

theorem render_eq (message : Message)
    (hunits : ∀ line ∈ position.contextLines, units line.text.toList ≤ maxOffset)
    (hcolumn : 1 ≤ position.column) (hend : 1 ≤ position.endColumn) :
    render message position = .ok (Block.render message position) := by
  have hrows : position.contextLines.mapM
      (rowsOf (Block.gutterWidth position.contextLines) position) = .ok
        (position.contextLines.map
          (Block.rowsOf (Block.gutterWidth position.contextLines) position)) := by
    rw [← List.filterMap_eq_map]
    exact mapM_eq_ok_filterMap fun line hline =>
      ⟨_, rfl, rowsOf_eq _ (hunits line hline) hcolumn hend⟩
  rw [render, hrows, ok_bind, ← List.flatMap_def]
  rfl

end

/-! ## Spans -/

/--
No span stops on its way to a block, and no bound changes what is shown.

Wherever a span starts and however long it and its context are, its position is the one that
sums without a bound give.
-/
theorem resolve_render_of_lt {text : List Char} (h : units text < maxOffset)
    (start length context : Nat) (message : Message) :
    let span := Span.ofLength start length
    let position := Position.resolve text ⟨start, start + length⟩ context
    Position.resolve text span context = position ∧
      resolve text span context = .ok position ∧
      render message position = .ok (Block.render message position) := by
  intro span position
  have hspan : Position.resolve text span context = position := by
    have hclamp : span.clamp (units text) = _ := Span.clamp_ofLength (Nat.le_of_lt h)
    have hlength : (LineIndex.ofText text).length = units text := rfl
    rw [Position.resolve, Position.resolveWith, hlength, hclamp]
    rfl
  refine ⟨hspan, ?_, ?_⟩
  · rw [resolve_eq h, hspan]
  · refine render_eq message ?_ (Position.contains_resolve_start text _ context).one_le_column
      (Position.contains_resolve_end text _ context).one_le_column
    intro line hline
    have hshown := Position.lineText?_of_mem_resolve text _ context hline
    exact Nat.le_of_lt (Nat.lt_of_le_of_lt (LineIndex.units_lineText?_le hshown) h)

/-- The greatest length and context from inside a surrogate pair reach to the end of the text. -/
theorem resolve_render_of_lt_surrogates :
    let text := ['a', '𝒳', '\r', '\n', '\t']
    let position : Position := ⟨1, 3, 2, 2, [⟨1, "a𝒳"⟩, ⟨2, "\t"⟩]⟩
    units text < maxOffset ∧
      resolve text (Span.ofLength 2 maxOffset) maxOffset = .ok position ∧
      render (.plain "here") position = .ok "here\n  --> 1:3\n  1 | a𝒳\n    |   ^\n  2 |" := by
  intro text position
  have hunits : units text < maxOffset := by decide
  obtain ⟨-, hresolve, hrender⟩ :=
    resolve_render_of_lt hunits 2 maxOffset maxOffset (.plain "here")
  have hposition : Position.resolve text ⟨2, 2 + maxOffset⟩ maxOffset = position := by
    decide +kernel
  have hblock : Block.render (.plain "here") position =
      "here\n  --> 1:3\n  1 | a𝒳\n    |   ^\n  2 |" := by
    decide +kernel
  rw [hposition] at hresolve hrender
  exact ⟨hunits, hresolve, hrender.trans (congrArg Except.ok hblock)⟩

end Word

end ScopedCheck

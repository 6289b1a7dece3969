import ScopedCheck.Proofs.Source.Resolution
import ScopedCheck.Proofs.Source.Words

/-!
# Spans resolved with words

The index of a text is built here in one pass, in three lists, and a span is resolved
with it; offsets, columns and line numbers are words, and every step with them is
checked.  In a text whose length is below the greatest word no step stops, and the
position is the one that numbers without a bound give.
-/

namespace ScopedCheck

namespace LineIndex

open Text (units)

/-! ## Bounds -/

theorem le_start_of_mem_layout {lines : List (List Char)} {start byteStart : Nat}
    {bounds : LineBounds} (h : bounds ∈ layout start byteStart lines) : start ≤ bounds.start := by
  induction lines generalizing start byteStart with
  | nil => exact absurd h List.not_mem_nil
  | cons piece rest ih =>
      rcases List.mem_cons.1 h with rfl | hrest
      · exact Nat.le_refl start
      · exact Nat.le_trans (by omega) (ih hrest)

theorem pairwise_layout (start byteStart : Nat) (lines : List (List Char)) :
    (layout start byteStart lines).Pairwise (·.start < ·.start) := by
  induction lines generalizing start byteStart with
  | nil => exact List.Pairwise.nil
  | cons piece rest ih =>
      refine List.pairwise_cons.2 ⟨fun bounds hbounds => ?_, ih _ _⟩
      have hle := le_start_of_mem_layout hbounds
      dsimp only
      omega

theorem line_le_units {text : List Char} {line : Nat} (h : line < (ofText text).lineCount) :
    line ≤ units text := by
  rw [lineCount_ofText] at h
  have hplace : Place text (units (before text line)) line 0 (pieces text)[line] :=
    ⟨List.getElem?_eq_getElem h, Nat.zero_le _, rfl⟩
  calc
    line = Text.breaksBefore text (units (before text line)) := hplace.breaksBefore.symm
    _ ≤ units (before text line) := Nat.count_le _
    _ ≤ units text := hplace.le_units

theorem lineCount_le (text : List Char) : (ofText text).lineCount ≤ units text + 1 := by
  have hpos := lineCount_pos text
  have hlast := line_le_units (Nat.sub_lt hpos Nat.one_pos)
  omega

theorem units_piece_le {text piece : List Char} {line : Nat}
    (h : (pieces text)[line]? = some piece) : units piece ≤ units text := by
  obtain ⟨after, htext, _⟩ := exists_after h
  rw [htext, Text.units_append, Text.units_append]
  omega

theorem width_le_units (text : List Char) (line : Nat) : (ofText text).width line ≤ units text := by
  cases hpiece : (pieces text)[line]? with
  | none =>
      rw [width, List.getD_eq_getElem?_getD, getElem?_lines_eq_none hpiece]
      exact Nat.zero_le _
  | some piece =>
      obtain ⟨dropped, hdropped⟩ :=
        exists_append_contentOf piece (decide (line + 1 = (pieces text).length))
      have hcontent := congrArg units hdropped
      rw [Text.units_append] at hcontent
      rw [width_eq hpiece]
      exact Nat.le_trans (by omega) (units_piece_le hpiece)

theorem units_lineText?_le {text content : List Char} {line : Nat}
    (h : (ofText text).lineText? line text = some content) : units content ≤ units text := by
  rw [lineText?_ofText] at h
  obtain ⟨piece, hpiece, rfl⟩ := Option.map_eq_some_iff.1 h
  exact Nat.le_trans (units_dropLastChar_le '\r' piece) (units_piece_le hpiece)

theorem Contains.column_le_units {text : List Char} {line column : Nat}
    (h : (ofText text).Contains line column) : column ≤ units text + 1 := by
  have hcolumn := h.column_le
  have hwidth := width_le_units text (line - 1)
  omega

end LineIndex

namespace Word

open Text (units charUnits)

/-! ## The index -/

/-- The lines of a text, in a list for each of their bounds. -/
structure Index where
  starts : List Nat
  stops : List Nat
  byteStarts : List Nat
  length : Nat
  deriving DecidableEq, Repr

namespace Index

def of (index : LineIndex) : Index :=
  ⟨index.lines.map (·.start), index.lines.map (·.stop), index.lines.map (·.byteStart),
    index.length⟩

theorem getElem?_starts (index : LineIndex) (line : Nat) :
    (of index).starts[line]? = index.lines[line]?.map (·.start) :=
  List.getElem?_map

theorem getElem?_stops (index : LineIndex) (line : Nat) :
    (of index).stops[line]? = index.lines[line]?.map (·.stop) :=
  List.getElem?_map

theorem getElem?_byteStarts (index : LineIndex) (line : Nat) :
    (of index).byteStarts[line]? = index.lines[line]?.map (·.byteStart) :=
  List.getElem?_map

end Index

/--
A pass over a text: the lines so far, the units and bytes read, and whether `\r` was last.

Byte indices are no words; a text in memory has no place that they could not count.
-/
structure Pass where
  starts : List Nat
  stops : List Nat
  byteStarts : List Nat
  units : Nat
  bytes : Nat
  afterReturn : Bool

namespace Pass

def begin : Pass :=
  ⟨[0], [], [0], 0, 0, false⟩

def endLine (pass : Pass) : Except Trap Pass := do
  let stop ← if pass.afterReturn then sub pass.units 1 else pure pass.units
  let next ← add pass.units 1
  return { pass with
    starts := pass.starts ++ [next]
    stops := pass.stops ++ [stop]
    byteStarts := pass.byteStarts ++ [pass.bytes + 1] }

def read (pass : Pass) (c : Char) : Except Trap Pass := do
  let pass ← if c = '\n' then pass.endLine else pure pass
  let units ← add pass.units (charUnits c)
  return { pass with units, bytes := pass.bytes + c.utf8Size, afterReturn := c == '\r' }

def finish (pass : Pass) : Index :=
  ⟨pass.starts, pass.stops ++ [pass.units], pass.byteStarts, pass.units⟩

/-- A pass inside a line, with the lines above done. -/
def inside (done : List LineBounds) (start byteStart units bytes : Nat) (afterReturn : Bool) :
    Pass :=
  ⟨done.map (·.start) ++ [start], done.map (·.stop), done.map (·.byteStart) ++ [byteStart],
    units, bytes, afterReturn⟩

section

variable {done : List LineBounds} {start byteStart units bytes : Nat} {afterReturn : Bool}

theorem endLine_inside (hunits : units + 1 ≤ maxOffset)
    (hreturn : afterReturn = true → 0 < units) :
    (inside done start byteStart units bytes afterReturn).endLine = .ok
      (inside (done ++ [⟨start, if afterReturn then units - 1 else units, byteStart⟩])
        (units + 1) (bytes + 1) units bytes afterReturn) := by
  simp only [endLine, inside, List.map_append, List.map_cons, List.map_nil]
  cases afterReturn with
  | false =>
      rw [if_neg Bool.false_ne_true, pure_bind, add_of_le hunits, ok_bind]
      rfl
  | true =>
      rw [if_pos rfl, sub_of_le (hreturn rfl), ok_bind, add_of_le hunits, ok_bind]
      rfl

theorem read_break (hunits : units + 1 ≤ maxOffset) (hreturn : afterReturn = true → 0 < units) :
    (inside done start byteStart units bytes afterReturn).read '\n' = .ok
      (inside (done ++ [⟨start, if afterReturn then units - 1 else units, byteStart⟩])
        (units + 1) (bytes + 1) (units + 1) (bytes + 1) false) := by
  rw [read, if_pos rfl, endLine_inside hunits hreturn, ok_bind]
  simp only [inside, Text.charUnits_break, add_of_le hunits, ok_bind]
  rfl

theorem read_of_ne {c : Char} (hc : c ≠ '\n') (hunits : units + charUnits c ≤ maxOffset) :
    (inside done start byteStart units bytes afterReturn).read c = .ok
      (inside done start byteStart (units + charUnits c) (bytes + c.utf8Size) (c == '\r')) := by
  rw [read, if_neg hc]
  simp only [inside, pure_bind, add_of_le hunits, ok_bind]
  rfl

/-- A pass lists the lines that the scan from the same place does. -/
theorem foldlM_read (text : List Char) (hunits : units + Text.units text ≤ maxOffset)
    (hreturn : afterReturn = true → 0 < units) :
    (text.foldlM read (inside done start byteStart units bytes afterReturn)).map finish =
      .ok (.of ⟨done ++ LineIndex.scan units bytes afterReturn start byteStart text,
        units + Text.units text⟩) := by
  induction text generalizing done start byteStart units bytes afterReturn with
  | nil =>
      simp only [List.foldlM_nil, LineIndex.scan, Index.of, List.map_append]
      rfl
  | cons c rest ih =>
      rw [Text.units, ← Nat.add_assoc] at hunits ⊢
      have hpos := Text.charUnits_pos c
      rw [List.foldlM_cons]
      by_cases hc : c = '\n'
      · subst hc
        rw [Text.charUnits_break] at hunits ⊢
        rw [read_break (by omega) hreturn, ok_bind, ih hunits (fun h => by cases h),
          LineIndex.scan, if_pos rfl, List.append_assoc, List.singleton_append]
      · rw [read_of_ne hc (by omega), ok_bind, ih hunits (fun _ => by omega), LineIndex.scan,
          if_neg hc]

end

end Pass

namespace Index

def ofText (text : List Char) : Except Trap Index :=
  (text.foldlM Pass.read .begin).map Pass.finish

theorem ofText_eq {text : List Char} (h : units text ≤ maxOffset) :
    ofText text = .ok (.of (LineIndex.ofText text)) := by
  have hpass := @Pass.foldlM_read [] 0 0 0 0 false text (by rwa [Nat.zero_add])
    (fun h => by cases h)
  rwa [Nat.zero_add, List.nil_append] at hpass

/-! ## Lines and columns -/

def lineColumn (index : Index) (offset : Nat) : Except Trap LineColumn := do
  let offset := min offset index.length
  let found ← search index.starts offset 0 index.starts.length
  let stop ← get index.stops found.floor
  let start ← get index.starts found.floor
  let column ← sub (min offset stop) start
  let line ← ofNat found.floor
  return ⟨line, column⟩

/-- An end at the start of a later line belongs to the end of the line before it. -/
def endBefore (index : Index) (start stop : LineColumn) : Except Trap LineColumn :=
  if start.line < stop.line && stop.column == 0 then do
    let line ← sub stop.line 1
    match index.starts[line]?, index.stops[line]? with
    | some lineStart, some lineStop =>
        let column ← sub lineStop lineStart
        return ⟨line, column⟩
    | _, _ => return stop
  else return stop

/-- The content of a line; a line that is not there stops, too. -/
def lineText (index : Index) (line : Nat) (text : List Char) : Except Trap (List Char) := do
  let start ← get index.byteStarts line
  let stop := index.byteStarts[line + 1]?.getD (Text.bytes text)
  let content ← slice text start stop
  return LineIndex.dropLastChar '\r' (LineIndex.dropLastChar '\n' content)

def contextAround (index : Index) (text : List Char) (line context : Nat) :
    Except Trap (List ContextLine) := do
  let last ← ofNat (index.starts.length - 1)
  let first := line - context
  let last := min (addSaturating line context) last
  (List.range' first (last + 1 - first)).mapM fun line => do
    let content ← index.lineText line text
    let number ← add line 1
    return ⟨number, String.ofList content⟩

section

variable {text : List Char}

/-- The floor of an offset among the starts of the lines is the line that it lies in. -/
theorem exists_search_starts (text : List Char) (offset : Nat) :
    ∃ found, search (of (LineIndex.ofText text)).starts offset 0
        (of (LineIndex.ofText text)).starts.length = .ok found ∧
      found.floor = (LineIndex.ofText text).lineOf offset := by
  have hstarts : (of (LineIndex.ofText text)).starts.Pairwise (· < ·) := by
    rw [of, LineIndex.lines_ofText]
    exact List.pairwise_map.2 (LineIndex.pairwise_layout _ _ _)
  obtain ⟨found, hfound, hfloor⟩ := exists_search_whole hstarts offset
  refine ⟨found, hfound, ?_⟩
  rw [hfloor, of, List.takeWhile_map, List.length_map]
  rfl

theorem lineColumn_of (h : units text ≤ maxOffset) (offset : Nat) :
    (of (LineIndex.ofText text)).lineColumn offset =
      .ok ((LineIndex.ofText text).lineColumn offset) := by
  obtain ⟨line, column, piece, hplace⟩ := LineIndex.exists_place_min text offset
  obtain ⟨found, hfound, hfloor⟩ := exists_search_starts text (min offset (units text))
  rw [hplace.lineOf] at hfloor
  have hbounds := LineIndex.getElem?_lines hplace.piece_eq
  have hoffset := hplace.offset_eq
  have hline : line ≤ maxOffset := by
    obtain ⟨hlt, _⟩ := List.getElem?_eq_some_iff.1 hbounds
    exact Nat.le_trans (LineIndex.line_le_units hlt) h
  have hstop := (getElem?_stops (LineIndex.ofText text) line).trans (congrArg _ hbounds)
  have hstart := (getElem?_starts (LineIndex.ofText text) line).trans (congrArg _ hbounds)
  have hlength : (of (LineIndex.ofText text)).length = units text := rfl
  rw [← LineIndex.lineColumn_min, hplace.lineColumn]
  simp only [lineColumn, hlength, hfound, ok_bind, hfloor, get_of_getElem? hstop,
    get_of_getElem? hstart]
  rw [sub_of_le (by omega), ok_bind, ofNat_of_le hline, ok_bind]
  refine congrArg (fun column => Except.ok (⟨line, column⟩ : LineColumn)) ?_
  omega

theorem endBefore_of (start : LineColumn) {stop : LineColumn}
    (h : stop.line < (LineIndex.ofText text).lineCount) :
    (of (LineIndex.ofText text)).endBefore start stop =
      .ok (Position.endBefore (LineIndex.ofText text) start stop) := by
  rw [endBefore, Position.endBefore_eq]
  split
  · rename_i hmoved
    rw [Bool.and_eq_true, decide_eq_true_eq] at hmoved
    rw [LineIndex.lineCount_ofText] at h
    have hpiece := List.getElem?_eq_getElem (Nat.lt_of_le_of_lt (Nat.sub_le stop.line 1) h)
    have hbounds := LineIndex.getElem?_lines hpiece
    rw [sub_of_le (Nat.one_le_of_lt hmoved.1), ok_bind]
    simp only [getElem?_starts, getElem?_stops, hbounds, Option.map_some]
    rw [sub_of_le (Nat.le_add_right _ _), ok_bind, Nat.add_sub_cancel_left,
      LineIndex.width_eq hpiece]
    rfl
  · rfl

/-! ## The context -/

theorem lineText_of {index : LineIndex} {line : Nat} {content : List Char}
    (h : index.lineText? line text = some content) :
    (of index).lineText line text = .ok content := by
  obtain ⟨bounds, hbounds, hrest⟩ := Option.bind_eq_some_iff.1 h
  obtain ⟨part, hpart, hcontent⟩ := Option.bind_eq_some_iff.1 hrest
  have hstart : get (of index).byteStarts line = .ok bounds.byteStart :=
    get_of_getElem? (by rw [getElem?_byteStarts, hbounds, Option.map_some])
  rw [lineText, hstart, ok_bind, getElem?_byteStarts, ← Option.some.inj hcontent]
  cases hline : index.lines[line + 1]? with
  | none | some next =>
      rw [hline] at hpart
      dsimp only at hpart
      simp only [Option.map_none, Option.map_some, Option.getD_none, Option.getD_some,
        slice_of_sliceBytes? hpart, ok_bind]
      rfl

theorem contextAround_of (h : (LineIndex.ofText text).lineCount ≤ maxOffset) (line context : Nat) :
    (of (LineIndex.ofText text)).contextAround text line context =
      .ok (Position.contextAround (LineIndex.ofText text) text line context) := by
  have hcount : (of (LineIndex.ofText text)).starts.length = (LineIndex.ofText text).lineCount :=
    List.length_map _
  have hpos := LineIndex.lineCount_pos text
  have hsum : min (addSaturating line context) ((LineIndex.ofText text).lineCount - 1) =
      min (line + context) ((LineIndex.ofText text).lineCount - 1) := by
    rw [addSaturating]
    omega
  rw [contextAround, hcount, ofNat_of_le (by omega), ok_bind, Position.contextAround]
  dsimp only
  rw [hsum]
  refine mapM_eq_ok_filterMap fun shown hshown => ?_
  have hbounds := List.mem_range'_1.1 hshown
  obtain ⟨content, hcontent⟩ := LineIndex.exists_lineText?
    (show shown < (LineIndex.ofText text).lineCount by omega)
  refine ⟨⟨shown + 1, String.ofList content⟩, by rw [hcontent, Option.map_some], ?_⟩
  rw [lineText_of hcontent, ok_bind, add_of_le (by omega), ok_bind]
  rfl

end

end Index

/-! ## Positions -/

def resolve (text : List Char) (span : Span) (context : Nat) : Except Trap Position := do
  let index ← Index.ofText text
  let span := span.clamp index.length
  let start ← index.lineColumn span.start
  let stop ← index.lineColumn span.stop
  let stop ← index.endBefore start stop
  let contextLines ← index.contextAround text start.line context
  let line ← add start.line 1
  let column ← add start.column 1
  let endLine ← add stop.line 1
  let endColumn ← add stop.column 1
  return ⟨line, column, endLine, endColumn, contextLines⟩

theorem resolve_eq {text : List Char} (h : units text < maxOffset) (span : Span) (context : Nat) :
    resolve text span context = .ok (Position.resolve text span context) := by
  have hle := Nat.le_of_lt h
  have hlines : (LineIndex.ofText text).lineCount ≤ maxOffset :=
    Nat.le_trans (LineIndex.lineCount_le text) h
  have hstart :=
    LineIndex.contains_lineColumn text (span.clamp (LineIndex.ofText text).length).start
  have hstop :=
    LineIndex.contains_lineColumn text (span.clamp (LineIndex.ofText text).length).stop
  have hend (place : LineColumn) := @LineIndex.contains_endBefore _ place _ hstop
  have hlength : (Index.of (LineIndex.ofText text)).length = (LineIndex.ofText text).length := rfl
  rw [resolve, Index.ofText_eq hle, ok_bind]
  simp only [hlength, Index.lineColumn_of hle, Index.contextAround_of hlines, ok_bind]
  rw [Index.endBefore_of _ hstop.line_le, ok_bind, add_of_le (Nat.le_trans hstart.line_le hlines),
    ok_bind, add_of_le (Nat.le_trans hstart.column_le_units h), ok_bind,
    add_of_le (Nat.le_trans (hend _).line_le hlines), ok_bind,
    add_of_le (Nat.le_trans (hend _).column_le_units h), ok_bind]
  rfl

/-- The bound is exact: in one line as long as the greatest word, the column of its end is none. -/
theorem resolve_end_of_eq {text : List Char} (h : units text = maxOffset) (hbreak : '\n' ∉ text)
    (context : Nat) : resolve text ⟨maxOffset, maxOffset⟩ context = .error .overflow := by
  have hpieces : LineIndex.pieces text = [text] := Text.splitAt_of_not_mem hbreak
  have hplace : LineIndex.Place text (units text) 0 (units text) text :=
    ⟨by rw [hpieces]; rfl, Nat.le_refl _, Nat.zero_add _⟩
  have hcolumn : (LineIndex.ofText text).lineColumn (units text) = ⟨0, units text⟩ := by
    rw [hplace.lineColumn, hpieces, List.length_singleton, decide_eq_true rfl,
      LineIndex.contentOf, if_pos rfl, Nat.min_self]
  have hlines : (LineIndex.ofText text).lineCount = 1 := by
    rw [LineIndex.lineCount_ofText, hpieces, List.length_singleton]
  have hclamp : (Span.mk maxOffset maxOffset).clamp
      (Index.of (LineIndex.ofText text)).length = ⟨units text, units text⟩ := by
    rw [Span.clamp, ← h]
    exact congrArg₂ Span.mk (Nat.min_self _) (Nat.min_self _)
  have hcontext := Index.contextAround_of (show (LineIndex.ofText text).lineCount ≤ maxOffset by
    rw [hlines]; decide) 0 context
  rw [resolve, Index.ofText_eq (Nat.le_of_eq h), ok_bind]
  dsimp only
  rw [hclamp]
  simp only [Index.lineColumn_of (Nat.le_of_eq h), hcolumn, ok_bind]
  rw [Index.endBefore_of _ (by rw [hlines]; exact Nat.one_pos), Position.endBefore_self, ok_bind,
    hcontext, ok_bind, add_of_le (by decide), ok_bind, h]
  rfl

end Word

end ScopedCheck

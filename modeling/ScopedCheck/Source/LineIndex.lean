import ScopedCheck.Text.Units

/-!
# Lines of a source by offset

The index of a text lists its lines with their offsets.  `\n` and `\r\n` both
end a line, and neither belongs to its content, so that columns do not depend
on which of them a file uses.
-/

namespace ScopedCheck

structure LineBounds where
  /-- UTF-16 offset of its first character. -/
  start : Nat
  /-- UTF-16 offset just past its content. -/
  stop : Nat
  /-- Byte index of its first character. -/
  byteStart : Nat
  deriving DecidableEq, Repr, Inhabited

/-- A zero-based line and UTF-16 column. -/
structure LineColumn where
  line : Nat
  column : Nat
  deriving DecidableEq, Repr

structure LineIndex where
  lines : List LineBounds
  /-- UTF-16 length of the text. -/
  length : Nat
  deriving Repr

namespace LineIndex

/--
Lists the lines from a place in a text on.

`units` and `bytes` measure the text before that place, `afterReturn` tells
whether it ends with `\r`, and the line being read starts at `start` and
`byteStart`.
-/
def scan (units bytes : Nat) (afterReturn : Bool) (start byteStart : Nat) :
    List Char → List LineBounds
  | [] => [⟨start, units, byteStart⟩]
  | c :: rest =>
      if c = '\n' then
        ⟨start, if afterReturn then units - 1 else units, byteStart⟩ ::
          scan (units + 1) (bytes + 1) false (units + 1) (bytes + 1) rest
      else
        scan (units + Text.charUnits c) (bytes + c.utf8Size) (c == '\r') start byteStart rest

def ofText (text : List Char) : LineIndex :=
  ⟨scan 0 0 false 0 0 text, Text.units text⟩

def lineCount (index : LineIndex) : Nat :=
  index.lines.length

def isEmpty (index : LineIndex) : Bool :=
  index.length == 0

/-- Number of the last line that starts at or before an offset. -/
def lineOf (index : LineIndex) (offset : Nat) : Nat :=
  (index.lines.takeWhile (·.start ≤ offset)).length - 1

/--
The line and column of an offset.

Offsets past the end of the text count as its end, and an offset between `\r`
and `\n` as the end of the line's content.
-/
def lineColumn (index : LineIndex) (offset : Nat) : LineColumn :=
  let offset := min offset index.length
  let line := index.lineOf offset
  let bounds := index.lines.getD line default
  ⟨line, min offset bounds.stop - bounds.start⟩

/-- The offset of a line and column; none past the last line. -/
def offset? (index : LineIndex) (position : LineColumn) : Option Nat :=
  index.lines[position.line]?.map (·.start + position.column)

def lineStart? (index : LineIndex) (line : Nat) : Option Nat :=
  index.lines[line]?.map (·.start)

def lineEnd? (index : LineIndex) (line : Nat) : Option Nat :=
  index.lines[line]?.map (·.stop)

/-- Takes one character off the end of a text when it is the given one. -/
def dropLastChar (c : Char) (text : List Char) : List Char :=
  if text.getLast? == some c then text.dropLast else text

/--
The content of a line, cut out of a text by byte index.

None past the last line, and none when the text has no character boundary at
an index that the line needs.
-/
def lineText? (index : LineIndex) (line : Nat) (text : List Char) : Option (List Char) := do
  let bounds ← index.lines[line]?
  let stop := match index.lines[line + 1]? with
    | some next => next.byteStart
    | none => Text.bytes text
  let content ← Text.sliceBytes? text bounds.byteStart stop
  return dropLastChar '\r' (dropLastChar '\n' content)

theorem scan_ne_nil (units bytes : Nat) (afterReturn : Bool) (start byteStart : Nat)
    (text : List Char) : scan units bytes afterReturn start byteStart text ≠ [] := by
  induction text generalizing units bytes afterReturn start byteStart with
  | nil => simp [scan]
  | cons c rest ih =>
      simp only [scan]
      split
      · simp
      · exact ih _ _ _ _ _

theorem lineCount_pos (text : List Char) : 0 < (ofText text).lineCount :=
  List.length_pos_iff.2 (scan_ne_nil _ _ _ _ _ text)

end LineIndex

end ScopedCheck

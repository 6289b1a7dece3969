import ScopedCheck.Source.LineIndex
import ScopedCheck.Source.Span

/-!
# Positions that people read

A position is a span resolved against its text: one-based lines and columns and
the lines around its start.
-/

namespace ScopedCheck

structure ContextLine where
  number : Nat
  /-- Content without its terminator. -/
  text : String
  deriving DecidableEq, Repr

structure Position where
  line : Nat
  column : Nat
  endLine : Nat
  endColumn : Nat
  contextLines : List ContextLine
  deriving DecidableEq, Repr

namespace Position

/-- An end at the start of a later line belongs to the end of the line before it. -/
def endBefore (index : LineIndex) (start stop : LineColumn) : LineColumn :=
  if start.line < stop.line && stop.column == 0 then
    let line := stop.line - 1
    let bounds := index.lines.getD line default
    ⟨line, bounds.stop - bounds.start⟩
  else stop

/-- The lines at most `context` lines away from a given one. -/
def contextAround (index : LineIndex) (text : List Char) (line context : Nat) :
    List ContextLine :=
  let first := line - context
  let last := min (line + context) (index.lineCount - 1)
  (List.range' first (last + 1 - first)).filterMap fun line =>
    (index.lineText? line text).map fun content => ⟨line + 1, String.ofList content⟩

def resolveWith (index : LineIndex) (text : List Char) (span : Span) (context : Nat) :
    Position :=
  let span := span.clamp index.length
  let start := index.lineColumn span.start
  let stop := endBefore index start (index.lineColumn span.stop)
  { line := start.line + 1
    column := start.column + 1
    endLine := stop.line + 1
    endColumn := stop.column + 1
    contextLines := contextAround index text start.line context }

/-- Resolves a span, keeping `context` lines on either side of its start. -/
def resolve (text : List Char) (span : Span) (context : Nat) : Position :=
  resolveWith (LineIndex.ofText text) text span context

/-- The line that the span starts on. -/
def targetLine? (position : Position) : Option ContextLine :=
  position.contextLines.find? (·.number == position.line)

end Position

end ScopedCheck

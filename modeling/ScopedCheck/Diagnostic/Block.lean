import ScopedCheck.Diagnostic.Message
import ScopedCheck.Source.Position

/-!
# The display block of a diagnostic

The message comes first, the place below it, then the context lines with their
numbers right-aligned in a gutter, and carets under the offending characters.
-/

namespace ScopedCheck

namespace Block

def numberText (n : Nat) : List Char :=
  Nat.toDigits 10 n

def gutterWidth (lines : List ContextLine) : Nat :=
  lines.foldl (fun width line => max width (numberText line.number).length) 1

/-- Carets below the span, after padding that keeps the tabs of the line. -/
def marker (target : List Char) (position : Position) : List Char :=
  let start := Text.boundary target (position.column - 1)
  let stop :=
    if position.endLine = position.line then Text.boundary target (position.endColumn - 1)
    else target.length
  (target.take start).map (fun c => if c = '\t' then '\t' else ' ') ++
    List.replicate (max 1 (stop - start)) '^'

/-- A row of the block: two spaces, the gutter, a bar and some text. -/
def row (width : Nat) (gutter text : List Char) : List Char :=
  [' ', ' '] ++ Text.padLeft width gutter ++ [' ', '|', ' '] ++ text

def rowsOf (width : Nat) (position : Position) (line : ContextLine) : List (List Char) :=
  let content := line.text.toList
  let shown := row width (numberText line.number) content
  if line.number = position.line then [shown, row width [] (marker content position)]
  else [shown]

def placeRow (position : Position) : List Char :=
  [' ', ' ', '-', '-', '>', ' '] ++ numberText position.line ++ [':'] ++
    numberText position.column

/-- The rows of the block; the message is one of them, however many lines it has. -/
def rows (message : Message) (position : Position) : List (List Char) :=
  [message.flatten.toList, placeRow position] ++
    position.contextLines.flatMap (rowsOf (gutterWidth position.contextLines) position)

/-- The block, without trailing blanks on any row and without a final line break. -/
def render (message : Message) (position : Position) : String :=
  String.ofList (Text.joinWith ['\n'] ((rows message position).map Text.trimEnd))

end Block

end ScopedCheck

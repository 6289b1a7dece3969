import ScopedCheck.Diagnostic.Shape
import ScopedCheck.Json.Reader

/-!
# Reading raw diagnostics from text

The text is an object with an array of entries per file.  It is decoded while it
is read, so that of two faults the one that comes first in the text counts.  A
file that is named again loses the entries it had.
-/

namespace ScopedCheck

abbrev DecodeError := Json.Fault ShapeError

namespace RawEntry

open Json (Reader Value)

/-- Takes the outcome of a decoder over into a reader. -/
def orMismatch {α : Type} : Except ShapeError α → Reader ShapeError α
  | .ok found => return found
  | .error cause => Json.mismatch cause

/-- Containers allowed inside a message: a set, its entries and the entry are around it. -/
def messageDepth : Nat := Json.maxDepth - 3

def readField (draft : Draft) (field : Field) : Reader ShapeError Draft := do
  let value ← match field with
    | .messageText => Json.value messageDepth
    | _ => Json.shallow
  orMismatch (draft.set field value)

/-- Reads one member of an entry; a name that was there before is refused on sight. -/
def readMember (draft : Draft) : Reader ShapeError Draft := do
  match Field.ofName? (← Json.name) with
  | none =>
      Json.colon
      Json.skip
      return draft
  | some field =>
      if draft.has field then Json.mismatch (.duplicateField field)
      Json.colon
      readField draft field

/-- Reads the items of an entry's array as the given fields. -/
def readItems (draft : Draft) (first : Bool) : List Field → Reader ShapeError Draft
  | [] => return draft
  | field :: fields => do
      if ← Json.more ']' first then readItems (← readField draft field) false fields
      else orMismatch (draft.endsBefore field)

def read : Reader ShapeError RawEntry := do
  match ← Json.next? with
  | some '{' =>
      Json.advance
      let draft ← Json.foldItems '}' readMember ((← get).length + 1) true {}
      let entry ← orMismatch draft.finish
      Json.advance
      return entry
  | some '[' =>
      Json.advance
      let draft ← readItems {} true Field.all
      let entry ← orMismatch draft.finish
      if (← Json.next?) ≠ some ']' then Json.malformed
      Json.advance
      return entry
  | _ => Json.mismatch (.wrongType (← Json.shallow) .entry)

def readList : Reader ShapeError (List RawEntry) := do
  match ← Json.next? with
  | some '[' => Json.arrayOf read
  | _ => Json.mismatch (.wrongType (← Json.shallow) .sequence)

end RawEntry

namespace RawSet

def readFile (raw : RawSet) : Json.Reader ShapeError RawSet := do
  let name ← Json.memberName
  return raw.replace ⟨name⟩ (← RawEntry.readList)

def read : Json.Reader ShapeError RawSet := do
  match ← Json.next? with
  | some '{' => Json.foldContainer '}' readFile empty
  | _ => Json.mismatch (.wrongType (← Json.shallow) .map)

def ofText (text : String) : Except DecodeError RawSet :=
  Json.readAll read text.toList

end RawSet

namespace DecodeError

/-- The wording of a fault in diagnostics; faults of JSON itself have no further detail. -/
def message : DecodeError → String
  | .malformed => "malformed diagnostic input"
  | .mismatch cause => "malformed diagnostic input: " ++ cause.message

end DecodeError

end ScopedCheck

import ScopedCheck.Diagnostic.Shape
import ScopedCheck.Json.Reader

/-!
# Build info

The compiler leaves its diagnostics in a JSON file.  They are pairs of a file
and its entries; a file is named by a path or by its number in a list of names.
-/

namespace ScopedCheck

inductive BuildInfoError where
  | notJson
  | notPair (item : Json.Value)
  /-- A number that names no file. -/
  | unknownId (id : Json.Number)
  /-- Neither a path nor a number. -/
  | badReference (value : Json.Value)
  /-- Entries of the wrong shape. -/
  | malformed (cause : ShapeError)
  deriving Repr

def BuildInfoError.message : BuildInfoError → String
  | notJson => "failed to read build info: not a JSON text"
  | notPair item =>
      "failed to read build info: expected [file, diagnostics], found " ++ item.compact
  | unknownId id => "failed to read build info: unknown file id " ++ String.ofList id.text
  | badReference value =>
      "failed to read build info: unexpected file reference " ++ value.compact
  | malformed cause => "malformed diagnostic input: " ++ cause.message

namespace BuildInfo

/-- The object that holds the program's state: `program` where there is one. -/
def program (root : Json.Value) : Json.Value :=
  (root.get? "program").getD root

/-- The names that numbers refer to; what is no string is left out. -/
def fileNames (program : Json.Value) : List String :=
  match (program.get? "fileNames").bind (·.items?) with
  | some items => items.filterMap (·.text?)
  | none => []

def perFile (program : Json.Value) : List Json.Value :=
  ((program.get? "semanticDiagnosticsPerFile").bind (·.items?)).getD []

def nameOfId? (names : List String) : Json.Number → Option String
  | .int id => if 1 ≤ id then names[id.toNat - 1]? else none
  | .float _ => none

/-- The file that a reference names; relative paths are below `base`. -/
def fileOf (names : List String) (base : Path) : Json.Value → Except BuildInfoError Path
  | .string name => .ok (Path.absolutize ⟨name⟩ base)
  | .number id =>
      match nameOfId? names id with
      | some name => .ok (Path.absolutize ⟨name⟩ base)
      | none => .error (.unknownId id)
  | value => .error (.badReference value)

def addItem (names : List String) (base : Path) (raw : RawSet) :
    Json.Value → Except BuildInfoError RawSet
  | .array [reference, entries] => do
      let file ← fileOf names base reference
      match RawEntry.listOfJson entries with
      | .ok entries => return raw.extend file entries
      | .error cause => throw (.malformed cause)
  | .array items => .error (.notPair (.array items))
  | _ => .ok raw

/-- The diagnostics of a build info, members sorted by name; relative paths are below `base`. -/
def ofValue (root : Json.Value) (base : Path) : Except BuildInfoError RawSet :=
  let program := program root
  (perFile program).foldlM (addItem (fileNames program) base) RawSet.empty

def ofText (text : String) (base : Path) : Except BuildInfoError RawSet :=
  match Json.parse? text with
  | some root => ofValue root.keyed base
  | none => .error .notJson

end BuildInfo

end ScopedCheck

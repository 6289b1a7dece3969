import ScopedCheck.Check
import ScopedCheck.Json.Reader

/-!
# Snapshots

A snapshot is a JSON object with all that a check finds around it: files and
directories, places that programs are looked for in, and how the compiler ends.
-/

namespace ScopedCheck

/-- What a check finds around it, the compiler included. -/
structure Snapshot where
  environment : Environment
  compiler : CompilerBehavior

namespace Snapshot

def pathOf? (value : Json.Value) : Option Path :=
  value.text?.map (⟨·⟩)

/-- A list of paths; none given are none. -/
def pathsOf? (value : Option Json.Value) : Option (List Path) :=
  match value with
  | none => some []
  | some value => do (← value.items?).mapM pathOf?

/-- Adds a directory, given as `null`, or the text of a file. -/
def addFile? (tree : FileTree) (file : String × Json.Value) : Option FileTree :=
  match file.2 with
  | .null => some (tree.addDirectory ⟨file.1⟩)
  | .string text => some (tree.addFile ⟨file.1⟩ (Utf8.encode text.toList) false)
  | _ => none

def addProgram (tree : FileTree) (path : Path) : FileTree :=
  tree.addFile path [] true

def treeOf? (value : Json.Value) : Option FileTree := do
  let files ← match value.get? "files" with
    | some (.object members) => some members
    | none => some []
    | some _ => none
  let tree ← files.foldlM addFile? FileTree.empty
  return (← pathsOf? (value.get? "programs")).foldl addProgram tree

/-- How the compiler ends: whether it is content, and what it leaves behind. -/
def exitOf? (value : Json.Value) : Option CompilerExit := do
  let buildInfo ← match value.get? "buildInfo" with
    | some (.string text) => some (some (Utf8.encode text.toList))
    | some .null => some none
    | none => some none
    | some _ => none
  match ← value.get? "success" with
  | .bool success => return ⟨success, buildInfo⟩
  | _ => none

/-- A snapshot from its value; without a compiler's end the compiler is content. -/
def ofJson? (value : Json.Value) : Option Snapshot := do
  let value := value.keyed
  let workingDirectory ← (value.get? "workingDirectory").bind pathOf?
  let home ← (value.get? "home").bind pathOf?
  let searchPath ← pathsOf? (value.get? "searchPath")
  let tree ← treeOf? value
  let ending ← match value.get? "compiler" with
    | some compiler => exitOf? compiler
    | none => some ⟨true, none⟩
  return {
    environment := { tree := tree.addDirectory workingDirectory, workingDirectory, searchPath, home }
    compiler := fun _ => ending }

def ofText? (text : String) : Option Snapshot :=
  (Json.parse? text).bind ofJson?

end Snapshot

end ScopedCheck

import ScopedCheck.Path.Normal
import ScopedCheck.Text.Utf8

/-!
# File trees

A tree lists files and directories by the names that lead to them.  A path is
followed piece by piece, so that `..` needs the directory before it to exist and
a separator at the end needs a directory.
-/

namespace ScopedCheck

inductive AccessError where
  | notFound
  | permissionDenied
  | notDirectory
  | isDirectory
  | nameTooLong
  | nulInName
  deriving DecidableEq, Repr

def AccessError.message : AccessError → String
  | notFound => "No such file or directory (os error 2)"
  | permissionDenied => "Permission denied (os error 13)"
  | notDirectory => "Not a directory (os error 20)"
  | isDirectory => "Is a directory (os error 21)"
  | nameTooLong => "File name too long (os error 36)"
  | nulInName => "file name contained an unexpected NUL byte"

inductive Node where
  | file (content : List UInt8) (executable : Bool)
  | directory
  deriving Repr, Inhabited

/-- The names that lead from the root to a place. -/
abbrev Location := List (List Char)

structure FileTree where
  nodes : List (Location × Node)
  deriving Repr, Inhabited

namespace FileTree

def empty : FileTree :=
  ⟨[]⟩

def node? (tree : FileTree) (location : Location) : Option Node :=
  if location.isEmpty then some .directory
  else (tree.nodes.find? (·.1 == location)).map (·.2)

def put (tree : FileTree) (location : Location) (node : Node) : FileTree :=
  ⟨(location, node) :: tree.nodes.filter (·.1 != location)⟩

/-- Makes sure that a directory is at a location that has nothing yet. -/
def ensureDirectory (tree : FileTree) (location : Location) : FileTree :=
  match tree.node? location with
  | some _ => tree
  | none => tree.put location .directory

/-- The location that an absolute path names in any tree. -/
def locationOf (path : Path) : Location :=
  path.normalize.components.filterMap fun
    | .name text => some text
    | _ => none

/-- Makes sure of the directories that lead from the root to a location, itself included. -/
def ensureAlong (tree : FileTree) (location : Location) : FileTree :=
  ((List.range (location.length + 1)).map (location.take ·)).foldl ensureDirectory tree

def addDirectory (tree : FileTree) (path : Path) : FileTree :=
  tree.ensureAlong (locationOf path)

def addFile (tree : FileTree) (path : Path) (content : List UInt8) (executable : Bool) :
    FileTree :=
  let location := locationOf path
  (tree.ensureAlong location.dropLast).put location (.file content executable)

def isDirectoryAt (tree : FileTree) (location : Location) : Bool :=
  match tree.node? location with
  | some .directory => true
  | _ => false

def maxNameBytes : Nat := 255

def follow (tree : FileTree) (location : Location) (piece : List Char) :
    Except AccessError Location :=
  if !tree.isDirectoryAt location then .error .notDirectory
  else
    match Path.pieceComponent piece with
    | none => .ok location
    | some (.name text) =>
        if maxNameBytes < (Utf8.encode text).length then .error .nameTooLong
        else if (tree.node? (location ++ [text])).isSome then .ok (location ++ [text])
        else .error .notFound
    | some _ => .ok location.dropLast

/-- The location of an existing file or directory; relative paths start at `base`. -/
def locate (tree : FileTree) (base : Location) (path : Path) : Except AccessError Location :=
  if path.chars.any (·.toNat == 0) then .error .nulInName
  else if path.chars.isEmpty then .error .notFound
  else
    (Text.splitAt '/' path.chars).foldlM (follow tree) (if path.isAbsolute then [] else base)

def pathExists (tree : FileTree) (base : Location) (path : Path) : Bool :=
  (tree.locate base path).isOk

def readBytes (tree : FileTree) (base : Location) (path : Path) :
    Except AccessError (List UInt8) := do
  match tree.node? (← tree.locate base path) with
  | some (.file content _) => return content
  | some .directory => throw .isDirectory
  | none => throw .notFound

/-- The location of a directory; none when the path names anything else. -/
def directory? (tree : FileTree) (base : Location) (path : Path) : Option Location :=
  match tree.locate base path with
  | .ok location => if tree.isDirectoryAt location then some location else none
  | .error _ => none

def isExecutable (tree : FileTree) (base : Location) (path : Path) : Bool :=
  match tree.locate base path with
  | .ok location =>
      match tree.node? location with
      | some (.file _ executable) => executable
      | _ => false
  | .error _ => false

def startable (tree : FileTree) (base : Location) (path : Path) : Except AccessError Unit := do
  let _ ← tree.locate base path
  if tree.isExecutable base path then return () else throw .permissionDenied

def pathOf (location : Location) : Path :=
  Path.ofChars ('/' :: Text.joinWith ['/'] location)

end FileTree

/-- What sets the names of temporary files apart from all others. -/
structure FreshNames where
  config : String
  output : String
  deriving Repr, Inhabited

namespace FreshNames

/-- The name of a temporary configuration. -/
def configName (names : FreshNames) : Path :=
  ⟨"tsconfig." ++ names.config ++ ".json"⟩

/-- The name of the directory that a build info is written to. -/
def outputName (names : FreshNames) : Path :=
  ⟨".mono-ts-check-" ++ names.output⟩

end FreshNames

/-- What a run finds around it. -/
structure Environment where
  tree : FileTree
  /-- The working directory; relative paths start here. -/
  workingDirectory : Path
  /-- Directories that programs are looked for in. -/
  searchPath : List Path
  home : Path
  fresh : FreshNames := ⟨"check", "output"⟩
  deriving Inhabited

namespace Environment

def base (env : Environment) : Location :=
  FileTree.locationOf env.workingDirectory

def pathExists (env : Environment) (path : Path) : Bool :=
  env.tree.pathExists env.base path

def readBytes (env : Environment) (path : Path) : Except AccessError (List UInt8) :=
  env.tree.readBytes env.base path

/-- The text of a source, malformed bytes shown as U+FFFD. -/
def readSource (env : Environment) (path : Path) : Except String String :=
  match env.readBytes path with
  | .ok content => .ok (String.ofList (Utf8.decodeLossy content))
  | .error cause => .error cause.message

/-- A path made absolute without being normalized. -/
def absolute (env : Environment) (path : Path) : Path :=
  if path.isAbsolute then path else env.workingDirectory.join path

end Environment

end ScopedCheck

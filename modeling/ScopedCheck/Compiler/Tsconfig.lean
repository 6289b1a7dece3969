import ScopedCheck.FileTree
import ScopedCheck.Json.Tolerant

/-!
# Compiler configurations

A project's configuration is JSON with comments and trailing commas.  The
compiler runs with a copy of it that is restricted to the requested files.
-/

namespace ScopedCheck

inductive TsconfigFault where
  | unreadable (cause : AccessError)
  | notUtf8
  | notJson
  | notObject
  deriving DecidableEq, Repr

def TsconfigFault.message : TsconfigFault → String
  | unreadable cause => cause.message
  | notUtf8 => "stream did not contain valid UTF-8"
  | notJson => "not a JSON text"
  | notObject => "expected a JSON object"

inductive TsconfigError where
  | notFound (path : Path)
  | invalid (path : Path) (fault : TsconfigFault)
  deriving DecidableEq, Repr

def TsconfigError.message : TsconfigError → String
  | notFound path => "tsconfig not found at: " ++ path.text
  | invalid path fault => "invalid tsconfig " ++ path.text ++ ": " ++ fault.message

namespace Tsconfig

/-- Members of an object, sorted by name, each name once. -/
abbrev Members := List (String × Json.Value)

def ofText (text : String) : Except TsconfigFault Members :=
  match Json.parseTolerant? text with
  | none => .error .notJson
  | some value =>
      match value.keyed with
      | .object members => .ok members
      | _ => .error .notObject

def ofBytes (content : List UInt8) : Except TsconfigFault Members :=
  match Utf8.decode? content with
  | none => .error .notUtf8
  | some text => ofText (String.ofList text)

def load (env : Environment) (path : Path) : Except TsconfigError Members :=
  if !env.pathExists path then .error (.notFound path)
  else
    match env.readBytes path with
    | .error cause => .error (.invalid path (.unreadable cause))
    | .ok content =>
        match ofBytes content with
        | .ok members => .ok members
        | .error fault => .error (.invalid path fault)

/-- The compiler options of a configuration; anything but an object counts as none. -/
def compilerOptions (base : Members) : Members :=
  match Json.member? "compilerOptions" base with
  | some (.object members) => members
  | _ => []

/-- The compiler options that every check runs with. -/
def forcedOptions (options : Members) : Members :=
  Json.setMember "composite" (.bool true) (Json.setMember "skipLibCheck" (.bool true) options)

/--
The configuration of a check: the base restricted to `files`.

Patterns that are always included are taken below the root, because the copy may
be written to another directory.
-/
def restricted (base : Members) (files : List Path) (alwaysInclude : List String)
    (root : Path) : Members :=
  let options := Json.Value.object (forcedOptions (compilerOptions base))
  let files := Json.Value.array (files.map fun file => .string file.text)
  let included := Json.Value.array
    (alwaysInclude.map fun pattern => .string (Path.absolutize ⟨pattern⟩ root).text)
  Json.setMember "include" included
    (Json.setMember "files" files (Json.setMember "compilerOptions" options base))

def directoryOf (path fallback : Path) : Path :=
  match path.parent? with
  | some parent => if parent.text.isEmpty then fallback else parent
  | none => fallback

end Tsconfig

end ScopedCheck

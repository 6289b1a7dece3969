import ScopedCheck.Arguments
import ScopedCheck.Compiler.Locate
import ScopedCheck.Compiler.Run
import ScopedCheck.Config

/-!
# A check from arguments to result

A check compiles the rules, finds the compiler, runs it on the requested files,
selects what concerns them and reports it.  Without a requested file the
compiler is not even looked for.

The result is formatted and printed after that, and nothing is printed before.  A
working directory is given and every result can be written down, so that only
the stages of the check itself can fail.
-/

namespace ScopedCheck

inductive CheckError where
  | ignoreRule (cause : IgnoreError)
  | compilerNotFound
  | compiler (cause : CompilerError)
  | source (cause : SourceError)
  deriving Repr

namespace CheckError

def message : CheckError → String
  | ignoreRule cause => cause.message
  | compilerNotFound => "tsc binary not found"
  | compiler cause => cause.message
  | source cause => cause.message

def help? : CheckError → Option String
  | compilerNotFound => some "install typescript in the project or pass --tsc <path>"
  | _ => none

end CheckError

/-- What a check did and found. -/
structure CheckResult where
  /-- What the compiler was started with, if it was. -/
  invocation : Option Invocation
  found : Except CheckError (Report × Summary)

/-- A run in progress: an error ends it, and what was printed by then stays printed. -/
abbrev Printing := ExceptT CheckError (StateM String)

namespace CheckResult

/-- Formats what a check found and prints it, behind what was printed before. -/
def print (result : CheckResult) (format : OutputFormat) : Printing Summary := do
  let (report, summary) ← result.found
  let output := Output.format format report summary
  modify (· ++ output)
  return summary

/-- What a run prints that ends with a result. -/
def stdout (result : CheckResult) (format : OutputFormat) : String :=
  ((result.print format).run.run "").2

end CheckResult

namespace Check

/-- The requested files: those that the compiler checks, absolute, each once. -/
def inputFiles (files : List Path) (root : Path) : List Path :=
  Path.distinct ((files.filter Path.isTypeScript).map (·.absolutize root))

def ignoreList (arguments : Arguments) (config : Config) (root : Path) :
    Except IgnoreError IgnoreList :=
  if arguments.ignore then IgnoreList.compile config.ignore root else .ok IgnoreList.disabled

def compilerPath? (env : Environment) (arguments : Arguments) : Option Path :=
  match arguments.compiler with
  | some path => some (path.absolutize env.workingDirectory)
  | none => Compiler.find? env (some env.workingDirectory)

def plan (env : Environment) (arguments : Arguments) (config : Config) :
    Except CheckError (Project × IgnoreList) := do
  let root := env.workingDirectory
  let ignore ← (ignoreList arguments config root).mapError .ignoreRule
  match compilerPath? env arguments with
  | none => throw .compilerNotFound
  | some compiler =>
      return (⟨compiler, root, arguments.project.map (·.absolutize root)⟩, ignore)

/-- The sources that are asked for, and the report and the summary of what the compiler reported. -/
def concluded (read : SourceReader) (context : Nat) (files : List Path) (ignore : IgnoreList)
    (raw : RawSet) : List Path × Except CheckError (Report × Summary) :=
  let selection := Selection.ofRaw raw files ignore
  let (asked, built) := Report.build selection.diagnostics read context
  match built with
  | .ok report => (asked, .ok (report, Summary.ofReport report selection.stats))
  | .error cause => (asked, .error (.source cause))

def reportOf (env : Environment) (arguments : Arguments) (files : List Path)
    (ignore : IgnoreList) (raw : RawSet) : Except CheckError (Report × Summary) :=
  (concluded env.readSource arguments.context files ignore raw).2

def resultOf (env : Environment) (arguments : Arguments) (files : List Path)
    (ignore : IgnoreList) : CompilerOutcome → Except CheckError (Report × Summary)
  | .skipped => .ok (.empty, .clean .skipped files.length)
  | .passed => .ok (.empty, .clean .passed files.length)
  | .missingOutput => .ok (.empty, .clean .missingOutput files.length)
  | .diagnostics raw => reportOf env arguments files ignore raw

def run (env : Environment) (compiler : CompilerBehavior) (arguments : Arguments) :
    CheckResult :=
  let root := env.workingDirectory
  let files := inputFiles arguments.files root
  if files.isEmpty then ⟨none, .ok (.empty, .clean .skipped 0)⟩
  else
    let config := Config.load env (arguments.config.absolutize root)
    match plan env arguments config with
    | .error cause => ⟨none, .error cause⟩
    | .ok (project, ignore) =>
        let (invocation, outcome) := project.check env compiler files config.alwaysInclude
        match outcome with
        | .error cause => ⟨invocation, .error (.compiler cause)⟩
        | .ok outcome => ⟨invocation, resultOf env arguments files ignore outcome⟩

end Check

end ScopedCheck

import ScopedCheck.Compiler.BuildInfo
import ScopedCheck.Compiler.Tsconfig

/-!
# Running the compiler

The compiler is a function from what it is started with to how it ends.  A run
either does not need it, fails before or after it, or brings back what the
compiler left behind.
-/

namespace ScopedCheck

structure Invocation where
  /-- The program, as it was started. -/
  program : Path
  workingDirectory : Path
  /-- Where the configuration of the check is. -/
  project : Path
  /-- The configuration's text. -/
  config : String
  buildInfo : Path
  deriving Repr

def Invocation.arguments (invocation : Invocation) : List String :=
  ["-p", invocation.project.text, "--noEmit", "--tsBuildInfoFile", invocation.buildInfo.text]

structure CompilerExit where
  success : Bool
  /-- The build info it wrote, if any. -/
  buildInfo : Option (List UInt8)
  deriving Repr, Inhabited

/-- A compiler, as seen from outside: once started it comes to its end, and nothing interrupts it. -/
abbrev CompilerBehavior := Invocation → CompilerExit

inductive CompilerOutcome where
  /-- There was nothing to check. -/
  | skipped
  /-- The compiler is content. -/
  | passed
  /-- The compiler failed and left no build info. -/
  | missingOutput
  /-- The compiler failed and reported this. -/
  | diagnostics (raw : RawSet)
  deriving Repr

inductive CompilerError where
  | notFound (path : Path)
  | spawnFailed (cause : AccessError)
  | tsconfig (cause : TsconfigError)
  /-- The configuration or the build info has no directory to be written to. -/
  | tempFileFailed
  | buildInfo (cause : BuildInfoError)
  deriving Repr

def CompilerError.message : CompilerError → String
  | notFound path => "tsc binary not found at: " ++ path.text
  | spawnFailed cause => "failed to spawn tsc: " ++ cause.message
  | tsconfig cause => cause.message
  | tempFileFailed => "failed to write temporary files"
  | buildInfo cause => cause.message

structure Project where
  compiler : Path
  root : Path
  /-- The configuration, when it is not the root's own. -/
  config : Option Path
  deriving Repr

namespace Project

def configPath (project : Project) : Path :=
  match project.config with
  | some path => project.root.join path
  | none => project.root.join ⟨"tsconfig.json"⟩

/-- The directory below the root that the build info is written to, named anew in every run. -/
def outputDirectory (env : Environment) (project : Project) : Path :=
  (env.absolute project.root).join env.fresh.outputName

/-- Reads what the compiler left behind; blank or undecodable text counts as nothing. -/
def readBuildInfo (content : Option (List UInt8)) (base : Path) :
    Except CompilerError CompilerOutcome :=
  match content.bind Utf8.decode? with
  | none => .ok .missingOutput
  | some text =>
      if Text.isAllBlank text then .ok .missingOutput
      else
        match BuildInfo.ofText (String.ofList text) base with
        | .ok raw => .ok (.diagnostics raw)
        | .error cause => .error (.buildInfo cause)

def outcomeOf (ended : CompilerExit) (base : Path) : Except CompilerError CompilerOutcome :=
  if ended.success then .ok .passed else readBuildInfo ended.buildInfo base

/-- The program that a path starts in a directory; a bare name is looked for in the search path. -/
def program (env : Environment) (directory : Location) (path : Path) : Except AccessError Path :=
  if path.chars.contains '/' then do
    env.tree.startable directory path
    return path
  else
    match (env.searchPath.map (·.join path)).find? env.pathExists with
    | some found => do
        env.tree.startable directory found
        return found
    | none => throw .notFound

/-- Everything that has to be in place before the compiler starts. -/
def prepare (env : Environment) (project : Project) (files : List Path)
    (alwaysInclude : List String) : Except CompilerError Invocation := do
  if !env.pathExists project.compiler then throw (.notFound project.compiler)
  let configPath := project.configPath
  let base ← (Tsconfig.load env configPath).mapError .tsconfig
  let config := Tsconfig.restricted base files alwaysInclude project.root
  let configDirectory := env.absolute (Tsconfig.directoryOf configPath project.root)
  if (env.tree.directory? env.base configDirectory).isNone then throw .tempFileFailed
  match env.tree.directory? env.base (env.absolute project.root) with
  | none => throw .tempFileFailed
  | some directory =>
      let program ← (program env directory project.compiler).mapError .spawnFailed
      return {
        program
        workingDirectory := FileTree.pathOf directory
        project := configDirectory.join env.fresh.configName
        config := (Json.Value.object config).pretty
        buildInfo := (project.outputDirectory env).join ⟨"tsc_output.json"⟩ }

/--
Checks files with the project's settings.

The first part is what the compiler was started with, if it was.  Files of other
kinds are left out, and without any other file nothing happens at all.
-/
def check (env : Environment) (compiler : CompilerBehavior) (project : Project)
    (files : List Path) (alwaysInclude : List String) :
    Option Invocation × Except CompilerError CompilerOutcome :=
  let files := files.filter Path.isTypeScript
  if files.isEmpty then (none, .ok .skipped)
  else
    match project.prepare env files alwaysInclude with
    | .error cause => (none, .error cause)
    | .ok invocation =>
        (some invocation, outcomeOf (compiler invocation) (project.outputDirectory env))

end Project

end ScopedCheck

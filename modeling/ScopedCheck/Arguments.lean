import ScopedCheck.Output
import ScopedCheck.Json.Reader

/-!
# Command line arguments

Options may stand between files.  A value follows its option, as the next
argument or after `=`; a following one is taken note of at once and checked when
the option is complete, so that of two faults the one completed first counts.
After `--` everything is a file.
-/

namespace ScopedCheck

structure Arguments where
  files : List Path := []
  /-- The project's configuration. -/
  project : Option Path := none
  /-- Whether the ignore rules apply. -/
  ignore : Bool := false
  /-- The file with the rules. -/
  config : Path := ⟨"monoTsCheckConfig.js"⟩
  output : OutputFormat := .human
  /-- Source lines shown on either side. -/
  context : Nat := 1
  compiler : Option Path := none
  deriving Repr

inductive ValueOption where
  | project
  | config
  | output
  | context
  | compiler
  deriving DecidableEq, Repr

inductive Switch where
  | ignore
  | help
  | version
  deriving DecidableEq, Repr

inductive ArgumentsError where
  | unknownArgument
  /-- An option that needs a value has none. -/
  | missingValue
  /-- A value that is none of those there are. -/
  | unknownValue
  /-- A value that is no number in range. -/
  | notNumber
  /-- An option that is given twice. -/
  | repeated
  | unexpectedValue
  | help
  | version
  deriving DecidableEq, Repr

namespace ValueOption

def name : ValueOption → List Char
  | project => "project".toList
  | config => "config".toList
  | output => "output".toList
  | context => "context".toList
  | compiler => "tsc".toList

def all : List ValueOption :=
  [project, config, output, context, compiler]

end ValueOption

def Switch.name : Switch → List Char
  | ignore => "ignore".toList
  | help => "help".toList
  | version => "version".toList

def Switch.all : List Switch :=
  [ignore, help, version]

inductive NamedOption where
  | value (option : ValueOption)
  | switch (option : Switch)
  deriving DecidableEq, Repr

def NamedOption.ofLong? (name : List Char) : Option NamedOption :=
  match ValueOption.all.find? (·.name == name) with
  | some option => some (.value option)
  | none => (Switch.all.find? (·.name == name)).map .switch

def NamedOption.ofShort? (letter : Char) : Option NamedOption :=
  if letter = 'p' then some (.value .project)
  else if letter = 'h' then some (.switch .help)
  else if letter = 'V' then some (.switch .version)
  else none

namespace OutputFormat

def ofName? (name : List Char) : Option OutputFormat :=
  if name = "human".toList then some .human
  else if name = "json".toList then some .json
  else if name = "machine".toList then some .machine
  else none

end OutputFormat

namespace Arguments

/-- A natural number of 32 bits; one sign may stand before it, a minus only before zero. -/
def number? (text : List Char) : Option Nat :=
  let digits := match text with
    | '+' :: rest => rest
    | '-' :: rest => rest
    | _ => text
  if digits.isEmpty || !digits.all Char.isDigit then none
  else
    let n := digits.foldl (fun n c => n * 10 + Json.digitValue c) 0
    if n ≤ maxOffset && (text.head? != some '-' || n == 0) then some n else none

/-- Where reading stands: what was understood, which options it has, and what is unfinished. -/
structure Progress where
  arguments : Arguments := {}
  given : List NamedOption := []
  /-- An option whose value is not complete, and the value as far as it was given. -/
  pending : Option (ValueOption × Option (List Char)) := none

namespace Progress

def store (progress : Progress) (option : ValueOption) (value : List Char) :
    Except ArgumentsError Progress :=
  let a := progress.arguments
  match option with
  | .project => .ok { progress with arguments := { a with project := some (Path.ofChars value) } }
  | .config => .ok { progress with arguments := { a with config := Path.ofChars value } }
  | .compiler =>
      .ok { progress with arguments := { a with compiler := some (Path.ofChars value) } }
  | .output =>
      match OutputFormat.ofName? value with
      | some output => .ok { progress with arguments := { a with output } }
      | none => .error .unknownValue
  | .context =>
      match number? value with
      | some context => .ok { progress with arguments := { a with context } }
      | none => .error .notNumber

def complete (progress : Progress) (option : ValueOption) :
    Option (List Char) → Except ArgumentsError Progress
  | none => .error .missingValue
  | some value =>
      if progress.given.contains (.value option) then .error .repeated
      else { progress with given := .value option :: progress.given }.store option value

def settle (progress : Progress) : Except ArgumentsError Progress :=
  match progress.pending with
  | none => .ok progress
  | some (option, value) => { progress with pending := none }.complete option value

def addFile (progress : Progress) (text : List Char) : Except ArgumentsError Progress := do
  let progress ← progress.settle
  let a := progress.arguments
  return { progress with arguments := { a with files := a.files ++ [Path.ofChars text] } }

/-- Begins an option; a value given with it completes it at once. -/
def begin (progress : Progress) (option : ValueOption) (value : Option (List Char)) :
    Except ArgumentsError Progress := do
  let progress ← progress.settle
  match value with
  | some value => progress.complete option (some value)
  | none => return { progress with pending := some (option, none) }

def turn (progress : Progress) (option : Switch) : Except ArgumentsError Progress := do
  let progress ← progress.settle
  match option with
  | .help => throw .help
  | .version => throw .version
  | .ignore =>
      if progress.given.contains (.switch .ignore) then throw .repeated
      return { progress with
        given := .switch .ignore :: progress.given
        arguments := { progress.arguments with ignore := true } }

/-- Reads an argument that begins with two dashes, which are taken away. -/
def long (progress : Progress) (text : List Char) : Except ArgumentsError Progress :=
  let name := text.takeWhile (· != '=')
  let value := match text.dropWhile (· != '=') with
    | _ :: value => some value
    | [] => none
  match NamedOption.ofLong? name, value with
  | none, _ => .error .unknownArgument
  | some (.value option), value => progress.begin option value
  | some (.switch _), some _ => .error .unexpectedValue
  | some (.switch option), none => progress.turn option

/-- The value attached to a letter; an equals sign before it is dropped. -/
def attached : List Char → Option (List Char)
  | [] => none
  | '=' :: value => some value
  | value => some value

/-- Reads letters after one dash; the first that takes a value takes all that follows. -/
def short (progress : Progress) : List Char → Except ArgumentsError Progress
  | [] => .ok progress
  | letter :: rest =>
      match NamedOption.ofShort? letter with
      | none => .error .unknownArgument
      | some (.value option) => progress.begin option (attached rest)
      | some (.switch option) =>
          match progress.turn option with
          | .ok progress => progress.short rest
          | .error cause => .error cause

/-- Reads an argument that is no option: a value that is waited for, or a file. -/
def plain (progress : Progress) (text : List Char) : Except ArgumentsError Progress :=
  match progress.pending with
  | some (option, none) => .ok { progress with pending := some (option, some text) }
  | _ => progress.addFile text

def read (progress : Progress) : List (List Char) → Except ArgumentsError Progress
  | [] => progress.settle
  | ['-', '-'] :: rest => do
      let progress ← rest.foldlM addFile progress
      progress.settle
  | ('-' :: '-' :: text) :: rest => do
      let progress ← progress.long text
      progress.read rest
  | ('-' :: letter :: letters) :: rest => do
      let progress ← progress.short (letter :: letters)
      progress.read rest
  | text :: rest => do
      let progress ← progress.plain text
      progress.read rest

end Progress

/-- Reads a command line, the program's name left out. -/
def ofList (words : List String) : Except ArgumentsError Arguments :=
  (Progress.read {} (words.map (·.toList))).map (·.arguments)

end Arguments

end ScopedCheck

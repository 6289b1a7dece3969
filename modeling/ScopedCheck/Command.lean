import ScopedCheck.Check

/-!
# The command

A command line ends with an exit status and two texts.  Failed checks and errors
end with 1, arguments that cannot be understood with 2.
-/

namespace ScopedCheck

/-- How a command ends. -/
structure CommandResult where
  exitStatus : Nat
  stdout : String
  stderr : String
  deriving DecidableEq, Repr

namespace Command

/-- Printed for `--version`. -/
def versionText : String := "mono-ts-check 0.3.0\n"

/--
The end of a command whose arguments ask for no check.

How help and refusals are worded is left open, so that these texts are empty.
-/
def refusal : ArgumentsError → CommandResult
  | .version => ⟨0, versionText, ""⟩
  | .help => ⟨0, "", ""⟩
  | _ => ⟨2, "", ""⟩

def errorText (cause : CheckError) : String :=
  "Error: " ++ cause.message ++ "\n" ++
    match cause.help? with
    | some help => "  help: " ++ help ++ "\n"
    | none => ""

/-- Prints a result and ends with its verdict; an error is told on the other stream. -/
def conclusion (result : CheckResult) (format : OutputFormat) : CommandResult :=
  match (result.print format).run.run "" with
  | (.ok summary, printed) => ⟨if summary.hasFailed then 1 else 0, printed, ""⟩
  | (.error cause, printed) => ⟨1, printed, errorText cause⟩

/-- Runs a command line. -/
def run (env : Environment) (compiler : CompilerBehavior) (words : List String) :
    CommandResult :=
  match Arguments.ofList words with
  | .error cause => refusal cause
  | .ok arguments => conclusion (Check.run env compiler arguments) arguments.output

end Command

end ScopedCheck

import ScopedCheck.Command
import ScopedCheck.Snapshot

/-!
# The program

Checks a snapshot, read from the standard input, as the arguments say.
-/

/-- Runs the command line on the snapshot that the standard input holds. -/
def main (words : List String) : IO UInt32 := do
  let text ← (← IO.getStdin).readToEnd
  match ScopedCheck.Snapshot.ofText? text with
  | none =>
      (← IO.getStderr).putStr "Error: the standard input holds no snapshot\n"
      return 2
  | some snapshot =>
      let result := ScopedCheck.Command.run snapshot.environment snapshot.compiler words
      (← IO.getStdout).putStr result.stdout
      (← IO.getStderr).putStr result.stderr
      return UInt32.ofNat result.exitStatus

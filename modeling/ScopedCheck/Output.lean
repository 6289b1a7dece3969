import ScopedCheck.Diagnostic.Report
import ScopedCheck.Json.Printer

/-!
# What a run prints

A summary tells how a run ended.  The three formats are for people, for
programs that read JSON, and for programs that read lines.
-/

namespace ScopedCheck

inductive Status where
  /-- No file that the compiler checks was requested. -/
  | skipped
  /-- The compiler failed and left no build info behind. -/
  | missingOutput
  /-- Nothing is left to report. -/
  | passed
  /-- Something is reported. -/
  | failed
  deriving DecidableEq, Repr

def Status.name : Status → String
  | skipped => "skipped"
  | missingOutput => "missingOutput"
  | passed => "passed"
  | failed => "failed"

structure Summary where
  status : Status
  stats : Statistics
  /-- Number of reported diagnostics. -/
  errorCount : Nat
  /-- Number of files with reported diagnostics. -/
  errorFileCount : Nat
  deriving DecidableEq, Repr

namespace Summary

/-- The summary of a run that reports nothing. -/
def clean (status : Status) (totalFiles : Nat) : Summary :=
  ⟨status, Statistics.ofFiles totalFiles, 0, 0⟩

/-- The summary of a report and of the counters collected before it. -/
def ofReport (report : Report) (stats : Statistics) : Summary :=
  ⟨if report.errorCount = 0 then .passed else .failed, stats, report.errorCount,
    report.fileCount⟩

def hasFailed (summary : Summary) : Bool :=
  summary.status == .failed

theorem hasFailed_iff (summary : Summary) : summary.hasFailed = true ↔ summary.status = .failed := by
  simp [hasFailed]

/-- A run fails exactly when it reports something. -/
theorem hasFailed_ofReport (report : Report) (stats : Statistics) :
    (ofReport report stats).hasFailed = true ↔ 0 < report.errorCount := by
  rw [hasFailed_iff]
  by_cases h : report.errorCount = 0
  · simp [ofReport, h]
  · simp [ofReport, h]
    omega

def ignoredLine (stats : Statistics) : List String :=
  if stats.ignoredErrors = 0 then []
  else ["Ignored " ++ toString stats.ignoredErrors ++ " error(s) in " ++
    toString stats.ignoredFiles ++ " file(s)."]

def statusLines (summary : Summary) : List String :=
  match summary.status with
  | .skipped => ["No TypeScript files given, checking process skipped."]
  | .missingOutput => ["Cannot find tsc output file, checking process skipped."]
  | .passed =>
      ["Typescript checked passed.",
        "Found 0 error in " ++ toString summary.stats.totalFiles ++ " file(s)."]
  | .failed =>
      ["Typescript check failed.",
        "Found " ++ toString summary.errorCount ++ " error(s) in " ++
          toString summary.errorFileCount ++ " file(s)."]

/-- The summary as people read it, without a final line break. -/
def text (summary : Summary) : String :=
  "\n".intercalate (summary.statusLines ++ ignoredLine summary.stats)

end Summary

inductive OutputFormat where
  /-- For people. -/
  | human
  | json
  /-- One line per diagnostic. -/
  | machine
  deriving DecidableEq, Repr

namespace Output

def statsJson (stats : Statistics) : Json.Value :=
  .object [("totalFiles", .ofNat stats.totalFiles), ("totalErrors", .ofNat stats.totalErrors),
    ("ignoredFiles", .ofNat stats.ignoredFiles), ("ignoredError", .ofNat stats.ignoredErrors)]

/-- A reported diagnostic in JSON; an unknown code is `null`. -/
def entryJson (path : Path) (entry : ReportEntry) : Json.Value :=
  .object [("file", .string path.text),
    ("line", .ofNat entry.position.line), ("column", .ofNat entry.position.column),
    ("endLine", .ofNat entry.position.endLine), ("endColumn", .ofNat entry.position.endColumn),
    ("start", .ofNat entry.diagnostic.start), ("length", .ofNat entry.diagnostic.length),
    ("code", match entry.diagnostic.code with
      | some code => .ofNat code
      | none => .null),
    ("message", .string entry.diagnostic.message.flatten)]

def resultJson (report : Report) (summary : Summary) : Json.Value :=
  .object [("status", .string summary.status.name), ("stats", statsJson summary.stats),
    ("diagnostics", .array (report.entries.map fun (path, entry) => entryJson path entry))]

def machineLine (path : Path) (entry : ReportEntry) : String :=
  let code := match entry.diagnostic.code with
    | some code => " (TS" ++ toString code ++ ")"
    | none => ""
  "ERROR " ++ path.text ++ ":" ++ toString entry.position.line ++ ":" ++
    toString entry.position.column ++ " " ++ entry.diagnostic.message.text ++ code ++ "\n"

def format (outputFormat : OutputFormat) (report : Report) (summary : Summary) : String :=
  match outputFormat with
  | .human => report.render ++ summary.text ++ "\n"
  | .json => (resultJson report summary).pretty ++ "\n"
  | .machine => String.join (report.entries.map fun (path, entry) => machineLine path entry)

end Output

end ScopedCheck

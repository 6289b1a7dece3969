import Mathlib.Tactic.FinCases
import ScopedCheck.Output
import ScopedCheck.Proofs.Json.Keyed
import ScopedCheck.Proofs.Json.Printed

/-!
# What the JSON output says

The JSON output is read back as the summary and the entries of the report it was
printed from.
-/

namespace ScopedCheck

/-! ## Results -/

/-- The numbers of an entry are numbers of 64 bits. -/
structure ReportEntry.Fits (entry : ReportEntry) : Prop where
  line : entry.position.line ≤ Json.maxInteger
  column : entry.position.column ≤ Json.maxInteger
  endLine : entry.position.endLine ≤ Json.maxInteger
  endColumn : entry.position.endColumn ≤ Json.maxInteger
  start : entry.diagnostic.start ≤ Json.maxInteger
  length : entry.diagnostic.length ≤ Json.maxInteger
  code : ∀ code ∈ entry.diagnostic.code, code ≤ Json.maxInteger

structure Statistics.Fits (stats : Statistics) : Prop where
  totalFiles : stats.totalFiles ≤ Json.maxInteger
  totalErrors : stats.totalErrors ≤ Json.maxInteger
  ignoredFiles : stats.ignoredFiles ≤ Json.maxInteger
  ignoredErrors : stats.ignoredErrors ≤ Json.maxInteger

namespace Output

/-- What a JSON object tells of an entry of a report. -/
structure Shows (path : Path) (entry : ReportEntry) (item : Json.Value) : Prop where
  file : item.get? "file" = some (.string path.text)
  line : item.get? "line" = some (.ofNat entry.position.line)
  column : item.get? "column" = some (.ofNat entry.position.column)
  endLine : item.get? "endLine" = some (.ofNat entry.position.endLine)
  endColumn : item.get? "endColumn" = some (.ofNat entry.position.endColumn)
  start : item.get? "start" = some (.ofNat entry.diagnostic.start)
  length : item.get? "length" = some (.ofNat entry.diagnostic.length)
  code : item.get? "code" = some (entry.diagnostic.code.elim .null .ofNat)
  message : item.get? "message" = some (.string entry.diagnostic.message.flatten)

structure Counts (stats : Statistics) (value : Json.Value) : Prop where
  totalFiles : value.get? "totalFiles" = some (.ofNat stats.totalFiles)
  totalErrors : value.get? "totalErrors" = some (.ofNat stats.totalErrors)
  ignoredFiles : value.get? "ignoredFiles" = some (.ofNat stats.ignoredFiles)
  ignoredErrors : value.get? "ignoredError" = some (.ofNat stats.ignoredErrors)

end Output

end ScopedCheck

import ScopedCheck.Diagnostic.Reading
import ScopedCheck.Main
import ScopedCheck.Proofs.Path.NormalForm
import ScopedCheck.Proofs.Path.Distinct
import ScopedCheck.Proofs.Diagnostic.Selection
import ScopedCheck.Proofs.Compiler.BuildInfo
import ScopedCheck.Proofs.Check.Stages
import ScopedCheck.Proofs.Check.Accounting
import ScopedCheck.Proofs.Check.Unrequested
import ScopedCheck.Proofs.Check.Verdict
import ScopedCheck.Proofs.Text.Offset
import ScopedCheck.Proofs.Source.Layout
import ScopedCheck.Proofs.Source.RoundTrip
import ScopedCheck.Proofs.Text.Slice
import ScopedCheck.Proofs.Source.Returns
import ScopedCheck.Proofs.Diagnostic.Grouping
import ScopedCheck.Proofs.Compiler.Recoding
import ScopedCheck.Proofs.Diagnostic.Shape
import ScopedCheck.Proofs.Compiler.Tsconfig
import ScopedCheck.Proofs.Output
import ScopedCheck.Proofs.Source.Resolution
import ScopedCheck.Proofs.Text.Columns
import ScopedCheck.Proofs.Diagnostic.Alignment
import ScopedCheck.Proofs.Compiler.FileId
import ScopedCheck.Proofs.Diagnostic.IgnoredFiles
import ScopedCheck.Proofs.Source.LineTexts
import ScopedCheck.Proofs.Output.Records
import ScopedCheck.Proofs.Diagnostic.Chains
import ScopedCheck.Proofs.Path.Canonical
import ScopedCheck.Proofs.Path.Building
import ScopedCheck.Proofs.Diagnostic.Respelling
import ScopedCheck.Proofs.Check.InputFiles
import ScopedCheck.Proofs.Config
import ScopedCheck.Proofs.Json.Toleration
import ScopedCheck.Proofs.Compiler.Restriction
import ScopedCheck.Proofs.Json.Skipping
import ScopedCheck.Proofs.Diagnostic.Loading
import ScopedCheck.Proofs.Source.WordIndex
import ScopedCheck.Proofs.Diagnostic.WordBlock
import ScopedCheck.Proofs.Json.Comments
import ScopedCheck.Proofs.Diagnostic.ByteIndex

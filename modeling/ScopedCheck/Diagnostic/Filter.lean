import ScopedCheck.Diagnostic.Ignore
import ScopedCheck.Diagnostic.RawSet
import ScopedCheck.Source.Span

/-!
# From raw diagnostics to those of the requested files

Only requested files count.  The diagnostics of ignored files are dropped, and
counted while they are.
-/

namespace ScopedCheck

structure Diagnostic where
  /-- The file, in normal form. -/
  file : Path
  start : Nat
  length : Nat
  message : Message
  code : Option Nat
  deriving Repr, Inhabited

namespace Diagnostic

def span (diagnostic : Diagnostic) : Span :=
  Span.ofLength diagnostic.start diagnostic.length

def ofEntry (file : Path) (entry : RawEntry) : Diagnostic :=
  ⟨file, entry.start, entry.length, entry.message, entry.code⟩

end Diagnostic

structure Statistics where
  /-- Number of requested files. -/
  totalFiles : Nat
  /-- Reported and ignored errors together. -/
  totalErrors : Nat
  /-- Number of listed files whose errors were ignored. -/
  ignoredFiles : Nat
  ignoredErrors : Nat
  deriving DecidableEq, Repr

def Statistics.ofFiles (totalFiles : Nat) : Statistics :=
  ⟨totalFiles, 0, 0, 0⟩

/-- What is left of a raw set for the requested files. -/
structure Selection where
  diagnostics : List Diagnostic
  stats : Statistics
  deriving Repr

namespace Selection

def isClean (selection : Selection) : Bool :=
  selection.diagnostics.isEmpty

/-- Whether a file in normal form is one of the requested files. -/
def isRequested (requested : List Path) (file : Path) : Bool :=
  requested.any (·.normalize.same file)

/-- The listed files that count: requested ones with at least one entry, in normal form. -/
def relevant (raw : RawSet) (requested : List Path) : List (Path × List RawEntry) :=
  (raw.files.map fun (path, entries) => (path.normalize, entries)).filter
    fun (path, entries) => !entries.isEmpty && isRequested requested path

/-- Restricts a raw set to the requested files and applies the ignore rules. -/
def ofRaw (raw : RawSet) (requested : List Path) (ignore : IgnoreList) : Selection :=
  let files := relevant raw requested
  let ignored := files.filter fun (path, _) => ignore.isIgnored path
  let kept := files.filter fun (path, _) => !ignore.isIgnored path
  let diagnostics := kept.flatMap fun (path, entries) => entries.map (Diagnostic.ofEntry path)
  let ignoredErrors := (ignored.flatMap fun (_, entries) => entries).length
  ⟨diagnostics, ⟨requested.length, diagnostics.length + ignoredErrors, ignored.length,
    ignoredErrors⟩⟩

theorem totalErrors_ofRaw (raw : RawSet) (requested : List Path) (ignore : IgnoreList) :
    (ofRaw raw requested ignore).stats.totalErrors =
      (ofRaw raw requested ignore).diagnostics.length +
        (ofRaw raw requested ignore).stats.ignoredErrors :=
  rfl

end Selection

end ScopedCheck

import ScopedCheck.Diagnostic.Block
import ScopedCheck.Diagnostic.Filter

/-!
# Reports

A report groups diagnostics by file, in order of first mention, and shows each
next to the source it points at.  Every file is read once; the first one that
cannot be read ends the work without a report.
-/

namespace ScopedCheck

structure ReportEntry where
  diagnostic : Diagnostic
  position : Position
  block : String
  deriving Repr

structure FileReport where
  path : Path
  entries : List ReportEntry
  deriving Repr

structure Report where
  files : List FileReport
  deriving Repr

structure SourceError where
  path : Path
  reason : String
  deriving DecidableEq, Repr

def SourceError.message (e : SourceError) : String :=
  "failed to read " ++ e.path.text ++ ": " ++ e.reason

/-- Gives the text of a source, or says why it cannot be read. -/
abbrev SourceReader := Path → Except String String

/-- Appends a diagnostic to the group of its file; a new file makes a group at the end. -/
def addToGroup (diagnostic : Diagnostic) :
    List (Path × List Diagnostic) → List (Path × List Diagnostic)
  | [] => [(diagnostic.file, [diagnostic])]
  | (path, group) :: rest =>
      if path.same diagnostic.file then (path, group ++ [diagnostic]) :: rest
      else (path, group) :: addToGroup diagnostic rest

/-- Diagnostics by file, files in order of first mention. -/
def groupByFile (diagnostics : List Diagnostic) : List (Path × List Diagnostic) :=
  diagnostics.foldl (fun groups diagnostic => addToGroup diagnostic groups) []

def groupedCount (groups : List (Path × List Diagnostic)) : Nat :=
  (groups.flatMap (·.2)).length

theorem groupedCount_addToGroup (diagnostic : Diagnostic)
    (groups : List (Path × List Diagnostic)) :
    groupedCount (addToGroup diagnostic groups) = groupedCount groups + 1 := by
  unfold groupedCount
  induction groups with
  | nil => simp [addToGroup]
  | cons head rest ih =>
      obtain ⟨path, group⟩ := head
      simp only [addToGroup]
      split
      · simp
        omega
      · simp [ih]
        omega

/-- Grouping neither loses a diagnostic nor repeats one. -/
theorem groupedCount_groupByFile (diagnostics : List Diagnostic) :
    groupedCount (groupByFile diagnostics) = diagnostics.length := by
  have h : ∀ groups, groupedCount
      (diagnostics.foldl (fun groups diagnostic => addToGroup diagnostic groups) groups) =
        groupedCount groups + diagnostics.length := by
    induction diagnostics with
    | nil => simp
    | cons diagnostic rest ih =>
        intro groups
        simp [ih, groupedCount_addToGroup]
        omega
  simpa [groupedCount, groupByFile] using h []

namespace Report

def empty : Report :=
  ⟨[]⟩

def errorCount (report : Report) : Nat :=
  (report.files.flatMap (·.entries)).length

def fileCount (report : Report) : Nat :=
  report.files.length

def entries (report : Report) : List (Path × ReportEntry) :=
  report.files.flatMap fun file => file.entries.map (file.path, ·)

theorem length_entries (report : Report) : report.entries.length = report.errorCount := by
  simp [entries, errorCount, List.length_flatMap]

/-- One file's part of the displayed report: a header, the blocks, and a blank line at the end. -/
def renderFile (file : FileReport) : List Char :=
  file.path.chars ++ ['\n'] ++
    Text.joinWith ['\n', '\n'] (file.entries.map (·.block.toList)) ++ ['\n', '\n']

/-- The report as people read it. -/
def render (report : Report) : String :=
  String.ofList (report.files.flatMap renderFile)

def entryOf (text : List Char) (context : Nat) (diagnostic : Diagnostic) : ReportEntry :=
  let position := Position.resolve text diagnostic.span context
  ⟨diagnostic, position, Block.render diagnostic.message position⟩

/-- Reads the groups one after the other; also lists the files that were asked for. -/
def ofGroups (read : SourceReader) (context : Nat) :
    List (Path × List Diagnostic) → List Path × Except SourceError (List FileReport)
  | [] => ([], .ok [])
  | (path, group) :: rest =>
      match read path with
      | .error reason => ([path], .error ⟨path, reason⟩)
      | .ok text =>
          let (asked, files) := ofGroups read context rest
          (path :: asked,
            files.map (⟨path, group.map (entryOf text.toList context)⟩ :: ·))

/--
The report of a list of diagnostics, with `context` source lines on either side.

The first part lists the files that were asked for, in order.
-/
def build (diagnostics : List Diagnostic) (read : SourceReader) (context : Nat) :
    List Path × Except SourceError Report :=
  let (asked, files) := ofGroups read context (groupByFile diagnostics)
  (asked, files.map Report.mk)

end Report

end ScopedCheck

import ScopedCheck.Proofs.Diagnostic.Grouping
import ScopedCheck.Proofs.Outcome

/-!
# What a report holds

A report that was built has one record per group and one entry per diagnostic.
The files are read in the order of the groups, up to the first one that cannot
be read; then there is no report.
-/

namespace ScopedCheck

namespace Report

/-! ## Records and counts -/

/-- A record of a file is its group, resolved against the text that was read. -/
def IsRecordOf (read : SourceReader) (context : Nat) (file : FileReport)
    (group : Path × List Diagnostic) : Prop :=
  file.path = group.1 ∧
    ∃ text, read group.1 = .ok text ∧ file.entries = group.2.map (entryOf text.toList context)

/-- When every file can be read, there is one record per group, in the order of the groups. -/
theorem records_of_ofGroups {read : SourceReader} {context : Nat}
    {groups : List (Path × List Diagnostic)} {files : List FileReport}
    (h : (ofGroups read context groups).2 = .ok files) :
    List.Forall₂ (IsRecordOf read context) files groups := by
  induction groups generalizing files with
  | nil =>
      obtain rfl := Except.ok.inj h
      exact .nil
  | cons head rest ih =>
      obtain ⟨path, group⟩ := head
      cases hread : read path with
      | error reason => simp [ofGroups, hread] at h
      | ok text =>
          simp only [ofGroups, hread] at h
          obtain ⟨others, hrest, rfl⟩ := exists_ok_of_map h
          exact .cons ⟨rfl, text, hread, rfl⟩ (ih hrest)

theorem sum_length_entries {read : SourceReader} {context : Nat} {files : List FileReport}
    {groups : List (Path × List Diagnostic)}
    (h : List.Forall₂ (IsRecordOf read context) files groups) :
    (files.flatMap (·.entries)).length = groupedCount groups := by
  induction h with
  | nil => rfl
  | cons hrecord _ ih =>
      obtain ⟨_, text, _, hentries⟩ := hrecord
      simp only [groupedCount] at ih
      simp [groupedCount, hentries, ih]

theorem files_of_build {diagnostics : List Diagnostic} {read : SourceReader} {context : Nat}
    {report : Report} (h : (build diagnostics read context).2 = .ok report) :
    List.Forall₂ (IsRecordOf read context) report.files (groupByFile diagnostics) := by
  obtain ⟨files, hfiles, rfl⟩ := exists_ok_of_map h
  exact records_of_ofGroups hfiles

theorem errorCount_of_build {diagnostics : List Diagnostic} {read : SourceReader} {context : Nat}
    {report : Report} (h : (build diagnostics read context).2 = .ok report) :
    report.errorCount = diagnostics.length := by
  rw [errorCount, sum_length_entries (files_of_build h), groupedCount_groupByFile]

theorem fileCount_of_build {diagnostics : List Diagnostic} {read : SourceReader} {context : Nat}
    {report : Report} (h : (build diagnostics read context).2 = .ok report)
    (hnormal : ∀ diagnostic ∈ diagnostics, diagnostic.file.IsNormal) :
    report.fileCount = (diagnostics.map (·.file)).toFinset.card := by
  have hfiles : ∀ path ∈ diagnostics.map (·.file), path.IsNormal := by
    intro path hmem
    obtain ⟨diagnostic, hdiagnostic, rfl⟩ := List.mem_map.1 hmem
    exact hnormal diagnostic hdiagnostic
  calc
    report.fileCount = (groupByFile diagnostics).length := (files_of_build h).length_eq
    _ = ((groupByFile diagnostics).map (·.1)).length := by rw [List.length_map]
    _ = (diagnostics.map (·.file)).toFinset.card := by
        rw [map_fst_groupByFile, mentionedFiles, Path.length_distinct hfiles]

theorem errorCount_pos_iff {diagnostics : List Diagnostic} {read : SourceReader} {context : Nat}
    {report : Report} (h : (build diagnostics read context).2 = .ok report)
    (hnormal : ∀ diagnostic ∈ diagnostics, diagnostic.file.IsNormal) :
    0 < report.errorCount ↔ 0 < report.fileCount := by
  rw [errorCount_of_build h, fileCount_of_build h hnormal, Finset.card_pos, List.length_pos_iff]
  simp

/-! ## Reading -/

section

variable (read : SourceReader) (context : Nat)

def isReadable (path : Path) : Bool :=
  (read path).toBool

theorem isReadable_eq_false_iff (path : Path) :
    isReadable read path = false ↔ ∃ reason, read path = .error reason := by
  unfold isReadable
  cases read path <;> simp [Except.toBool]

/-- The files are asked for in order, up to and with the first that cannot be read. -/
theorem asked_ofGroups (groups : List (Path × List Diagnostic)) :
    (ofGroups read context groups).1 =
      (groups.map (·.1)).takeWhile (isReadable read) ++
        ((groups.map (·.1)).dropWhile (isReadable read)).take 1 := by
  induction groups with
  | nil => rfl
  | cons head rest ih =>
      obtain ⟨path, group⟩ := head
      cases hread : read path with
      | error reason => simp [ofGroups, hread, isReadable, Except.toBool]
      | ok text => simp [ofGroups, hread, isReadable, Except.toBool, ih]

/-- Reading fails with the first file that cannot be read, and only then. -/
theorem ofGroups_eq_error_iff (groups : List (Path × List Diagnostic)) (cause : SourceError) :
    (ofGroups read context groups).2 = .error cause ↔
      (groups.map (·.1)).find? (!isReadable read ·) = some cause.path ∧
        read cause.path = .error cause.reason := by
  induction groups with
  | nil => simp [ofGroups]
  | cons head rest ih =>
      obtain ⟨path, group⟩ := head
      cases hread : read path with
      | error reason =>
          obtain ⟨failed, given⟩ := cause
          simp only [ofGroups, hread, isReadable, Except.toBool, List.map_cons, List.find?_cons,
            Bool.not_false, Except.error.injEq, SourceError.mk.injEq, Option.some.injEq]
          constructor
          · rintro ⟨rfl, rfl⟩
            exact ⟨rfl, hread⟩
          · rintro ⟨rfl, hgiven⟩
            exact ⟨rfl, Except.error.inj (hread.symm.trans hgiven)⟩
      | ok text =>
          simp only [ofGroups, hread, map_eq_error_iff, ih, isReadable, Except.toBool,
            List.map_cons, List.find?_cons, Bool.not_true]

theorem exists_error_ofGroups_iff (groups : List (Path × List Diagnostic)) :
    (∃ cause, (ofGroups read context groups).2 = .error cause) ↔
      ∃ path ∈ groups.map (·.1), isReadable read path = false := by
  simp only [ofGroups_eq_error_iff]
  constructor
  · rintro ⟨cause, hfirst, hread⟩
    exact ⟨cause.path, List.mem_of_find?_eq_some hfirst,
      (isReadable_eq_false_iff read cause.path).2 ⟨cause.reason, hread⟩⟩
  · rintro ⟨path, hmem, hpath⟩
    have hsome : ((groups.map (·.1)).find? (!isReadable read ·)).isSome = true :=
      List.find?_isSome.2 ⟨path, hmem, by simp [hpath]⟩
    obtain ⟨first, hfirst⟩ := Option.isSome_iff_exists.1 hsome
    obtain ⟨reason, hread⟩ := (isReadable_eq_false_iff read first).1
      (by simpa using List.find?_some hfirst)
    exact ⟨⟨first, reason⟩, hfirst, hread⟩

end

/-! ## Grouped reports -/

/-- What the record of a file holds: its diagnostics in their order, each at its own place. -/
structure IsFileRecord (read : SourceReader) (context : Nat) (diagnostics : List Diagnostic)
    (record : FileReport) (path : Path) : Prop where
  path_eq : record.path = path
  diagnostics_eq : record.entries.map (·.diagnostic) = diagnostics.filter (path.same ·.file)
  places : ∃ text, read path = .ok text ∧ ∀ entry ∈ record.entries,
    entry.position = Position.resolve text.toList entry.diagnostic.span context ∧
      entry.block = Block.render entry.diagnostic.message entry.position

theorem isFileRecord_of_isRecordOf {read : SourceReader} {context : Nat}
    {diagnostics : List Diagnostic} {record : FileReport} {path : Path}
    (h : IsRecordOf read context record (path, diagnostics.filter (path.same ·.file))) :
    IsFileRecord read context diagnostics record path := by
  obtain ⟨hpath, text, hread, hentries⟩ := h
  refine ⟨hpath, ?_, text, hread, ?_⟩
  · simp [hentries, entryOf, Function.comp_def]
  · intro entry hmem
    rw [hentries] at hmem
    obtain ⟨diagnostic, _, rfl⟩ := List.mem_map.1 hmem
    exact ⟨rfl, rfl⟩

theorem records_of_build {diagnostics : List Diagnostic} {read : SourceReader} {context : Nat}
    {report : Report} (h : (build diagnostics read context).2 = .ok report) :
    List.Forall₂ (IsFileRecord read context diagnostics) report.files
      (mentionedFiles diagnostics) := by
  have hgroups := files_of_build h
  rw [groupByFile_eq, List.forall₂_map_right_iff] at hgroups
  exact hgroups.imp fun _ _ => isFileRecord_of_isRecordOf

/--
A report is a stable grouping, with one read per file and no part without the whole.

The files are those mentioned, each once, in order of first mention.  They are asked for in that
order, up to and with the first that cannot be read; its error is then the outcome.  When all can
be read there is one record per file, with the file's own diagnostics in their order.
-/
theorem build_groups (diagnostics : List Diagnostic) (read : SourceReader) (context : Nat) :
    let files := mentionedFiles diagnostics
    (Path.Apart files ∧
      ∀ path : Path, files.any (·.same path) = diagnostics.any (·.file.same path)) ∧
    (build diagnostics read context).1 =
      files.takeWhile (isReadable read) ++ (files.dropWhile (isReadable read)).take 1 ∧
    (∀ cause, (build diagnostics read context).2 = .error cause ↔
      files.find? (!isReadable read ·) = some cause.path ∧
        read cause.path = .error cause.reason) ∧
    ((∃ cause, (build diagnostics read context).2 = .error cause) ↔
      ∃ path ∈ files, isReadable read path = false) ∧
    ((∀ path ∈ files, isReadable read path = true) →
      ∃ report, (build diagnostics read context).2 = .ok report ∧
        List.Forall₂ (IsFileRecord read context diagnostics) report.files files ∧
        report.errorCount = diagnostics.length ∧ report.fileCount = files.length) := by
  intro files
  have hpaths : (groupByFile diagnostics).map (·.1) = files := map_fst_groupByFile diagnostics
  have herror : ∀ cause, (build diagnostics read context).2 = .error cause ↔
      (ofGroups read context (groupByFile diagnostics)).2 = .error cause :=
    fun _ => map_eq_error_iff
  have hfailed : (∃ cause, (build diagnostics read context).2 = .error cause) ↔
      ∃ path ∈ files, isReadable read path = false := by
    simp only [herror, exists_error_ofGroups_iff, hpaths]
  refine ⟨⟨apart_mentionedFiles diagnostics, any_mentionedFiles diagnostics⟩, ?_, ?_, hfailed, ?_⟩
  · rw [← hpaths]
    exact asked_ofGroups read context (groupByFile diagnostics)
  · intro cause
    rw [herror, ofGroups_eq_error_iff, hpaths]
  · intro hreadable
    cases hbuilt : (build diagnostics read context).2 with
    | error cause =>
        obtain ⟨path, hmem, hpath⟩ := hfailed.1 ⟨cause, hbuilt⟩
        rw [hreadable path hmem] at hpath
        cases hpath
    | ok report =>
        have hrecords := records_of_build hbuilt
        exact ⟨report, rfl, hrecords, errorCount_of_build hbuilt, hrecords.length_eq⟩

/-- Two spellings of one file, with another file in between, make one record. -/
theorem build_groups_interleaved :
    let diagnostics : List Diagnostic :=
      [⟨⟨"/b.ts"⟩, 2, 1, .plain "later", none⟩, ⟨⟨"/a.ts"⟩, 0, 1, .plain "other", some 1⟩,
        ⟨⟨"//b.ts/."⟩, 0, 1, .plain "earlier", none⟩]
    let read : SourceReader := fun _ => .ok "x\ny"
    mentionedFiles diagnostics = [⟨"/b.ts"⟩, ⟨"/a.ts"⟩] ∧
      (∀ path ∈ mentionedFiles diagnostics, isReadable read path = true) ∧
      ∃ report, (build diagnostics read 0).2 = .ok report ∧
        (report.files.map fun record => record.entries.map (·.diagnostic.start)) = [[2, 0], [0]] ∧
        report.errorCount = 3 ∧ report.fileCount = 2 := by
  intro diagnostics read
  have hfiles : mentionedFiles diagnostics = [⟨"/b.ts"⟩, ⟨"/a.ts"⟩] := by decide +kernel
  have hreadable : ∀ path ∈ mentionedFiles diagnostics, isReadable read path = true :=
    fun _ _ => rfl
  obtain ⟨report, hbuilt, hrecords, herrors, hcount⟩ :=
    (build_groups diagnostics read 0).2.2.2.2 hreadable
  have hstarts : (report.files.map fun record => record.entries.map (·.diagnostic.start)) =
      (mentionedFiles diagnostics).map fun path =>
        (diagnostics.filter (path.same ·.file)).map (·.start) := by
    rw [← List.forall₂_eq_eq_eq, List.forall₂_map_left_iff, List.forall₂_map_right_iff]
    refine hrecords.imp fun record path hrecord => ?_
    rw [← hrecord.diagnostics_eq, List.map_map]
    rfl
  rw [hfiles] at hstarts hcount
  exact ⟨hfiles, hreadable, report, hbuilt, hstarts.trans (by decide +kernel), herrors, hcount⟩

end Report

end ScopedCheck

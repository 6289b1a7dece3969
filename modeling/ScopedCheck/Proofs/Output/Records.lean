import Mathlib.Data.List.Basic
import ScopedCheck.Output
import ScopedCheck.Proofs.Text.Splitting

/-!
# Records of the machine output

The machine output is one record after the other, each with a line break after it.
A record has the line breaks of its path and of its message, so that it is a line
of the output just when both have none.
-/

namespace ScopedCheck

namespace Output

/-! ## Records -/

def record (path : Path) (entry : ReportEntry) : List Char :=
  "ERROR ".toList ++ path.chars ++ ':' :: (toString entry.position.line).toList ++
    ':' :: (toString entry.position.column).toList ++
    ' ' :: entry.diagnostic.message.text.toList ++
    entry.diagnostic.code.elim [] fun code => " (TS".toList ++ (toString code).toList ++ [')']

theorem toList_machineLine (path : Path) (entry : ReportEntry) :
    (machineLine path entry).toList = record path entry ++ ['\n'] := by
  have hcolon : ":".toList = [':'] := rfl
  have hblank : " ".toList = [' '] := rfl
  have hclose : ")".toList = [')'] := rfl
  have hbreak : "\n".toList = ['\n'] := rfl
  unfold machineLine record
  cases entry.diagnostic.code with
  | none =>
      simp only [String.toList_append, String.toList_empty, Path.chars, hcolon, hblank, hbreak,
        Option.elim_none, List.append_assoc, List.cons_append, List.nil_append, List.append_nil]
  | some code =>
      simp only [String.toList_append, Path.chars, hcolon, hblank, hbreak, hclose,
        Option.elim_some, List.append_assoc, List.cons_append, List.nil_append]

theorem toList_format_machine (report : Report) (summary : Summary) :
    (format .machine report summary).toList =
      (report.entries.map fun entry => record entry.1 entry.2).flatMap (· ++ ['\n']) := by
  rw [format, String.toList_join, List.flatMap_map, List.flatMap_map]
  simp only [toList_machineLine]

/-! ## Line breaks -/

theorem count_break_toString (n : Nat) : (toString n).toList.count '\n' = 0 := by
  rw [List.count_eq_zero]
  intro hmem
  rw [show (toString n).toList = Nat.toDigits 10 n from Nat.toList_repr] at hmem
  have hdigit := Nat.isDigit_of_mem_toDigits (by decide) (by decide) hmem
  exact absurd hdigit (by decide)

theorem count_break_record (path : Path) (entry : ReportEntry) :
    (record path entry).count '\n' =
      path.chars.count '\n' + entry.diagnostic.message.text.toList.count '\n' := by
  have herror : "ERROR ".toList.count '\n' = 0 := by decide
  have hcolon : ∀ rest, (':' :: rest).count '\n' = rest.count '\n' :=
    fun _ => List.count_cons_of_ne (by decide)
  have hblank : ∀ rest, (' ' :: rest).count '\n' = rest.count '\n' :=
    fun _ => List.count_cons_of_ne (by decide)
  have hcode : (entry.diagnostic.code.elim [] fun code =>
      " (TS".toList ++ (toString code).toList ++ [')']).count '\n' = 0 := by
    cases entry.diagnostic.code with
    | none => rfl
    | some code =>
        have hopen : " (TS".toList.count '\n' = 0 := by decide
        have hclose : [')'].count '\n' = 0 := by decide
        simp only [Option.elim_some, List.count_append, count_break_toString, hopen, hclose]
  unfold record
  rw [List.count_append, List.count_append, List.count_append, List.count_append,
    List.count_append, hcode, herror, hcolon, hcolon, hblank, count_break_toString,
    count_break_toString]
  simp only [Nat.zero_add, Nat.add_zero]

theorem count_break_flatMap_record {entries : List (Path × ReportEntry)}
    (h : ∀ entry ∈ entries, '\n' ∉ entry.1.chars) :
    ((entries.map fun entry => record entry.1 entry.2).flatMap (· ++ ['\n'])).count '\n' =
      entries.length +
        (entries.flatMap fun entry => entry.2.diagnostic.message.text.toList).count '\n' := by
  induction entries with
  | nil => rfl
  | cons entry rest ih =>
      have hpath : entry.1.chars.count '\n' = 0 := List.count_eq_zero.2 (h entry List.mem_cons_self)
      have hrest := ih fun other hmem => h other (List.mem_cons_of_mem entry hmem)
      simp only [List.map_cons, List.flatMap_cons, List.count_append, count_break_record, hpath,
        hrest, List.count_singleton_self, List.length_cons]
      omega

theorem exists_file_of_mem_entries {report : Report} {entry : Path × ReportEntry}
    (h : entry ∈ report.entries) : ∃ file ∈ report.files, entry.1 = file.path := by
  obtain ⟨file, hfile, hentry⟩ := List.mem_flatMap.1 h
  obtain ⟨shown, _, rfl⟩ := List.mem_map.1 hentry
  exact ⟨file, hfile, rfl⟩

/-! ## Records and lines -/

/--
The machine output has a record for every entry, in order, with a line break after each.

Every line break of a message makes one line more, so the lines are the records just when no
message has one.
-/
theorem format_machine_records {report : Report}
    (hpaths : ∀ file ∈ report.files, '\n' ∉ file.path.chars) (summary : Summary) :
    let output := (format .machine report summary).toList
    let records := report.entries.map fun entry => record entry.1 entry.2
    output = records.flatMap (· ++ ['\n']) ∧ records.length = report.errorCount ∧
      (Text.splitAt '\n' output).length = report.errorCount + 1 +
        (report.entries.flatMap fun entry => entry.2.diagnostic.message.text.toList).count '\n' ∧
      (Text.splitAt '\n' output = records ++ [[]] ↔
        ∀ entry ∈ report.entries, '\n' ∉ entry.2.diagnostic.message.text.toList) := by
  intro output records
  have houtput : output = records.flatMap (· ++ ['\n']) := toList_format_machine report summary
  have hentries : ∀ entry ∈ report.entries, '\n' ∉ entry.1.chars := by
    intro entry hmem
    obtain ⟨file, hfile, heq⟩ := exists_file_of_mem_entries hmem
    rw [heq]
    exact hpaths file hfile
  have hbreak : ∀ entry ∈ report.entries, '\n' ∉ record entry.1 entry.2 ↔
      '\n' ∉ entry.2.diagnostic.message.text.toList := by
    intro entry hmem
    rw [← List.count_eq_zero, ← List.count_eq_zero, count_break_record,
      List.count_eq_zero.2 (hentries entry hmem), Nat.zero_add]
  refine ⟨houtput, ?_, ?_, ?_⟩
  · rw [List.length_map, Report.length_entries]
  · rw [Text.length_splitAt, houtput, count_break_flatMap_record hentries, Report.length_entries]
    omega
  · constructor
    · intro hlines entry hmem
      rw [← hbreak entry hmem]
      apply Text.not_mem_of_mem_splitAt
      rw [hlines]
      exact List.mem_append_left _ (List.mem_map_of_mem hmem)
    · intro hmessages
      rw [houtput]
      apply Text.splitAt_flatMap_append
      intro piece hpiece
      obtain ⟨entry, hmem, rfl⟩ := List.mem_map.1 hpiece
      exact (hbreak entry hmem).2 (hmessages entry hmem)

/-- Explanations are not in a record, with whatever breaks they have. -/
theorem format_machine_records_explained :
    let path : Path := ⟨"/p/a.ts"⟩
    let explained : Message := .chain (.link "" [.link "a" [.link "b\nc" []]])
    let report : Report := ⟨[⟨path, [⟨⟨path, 0, 1, explained, none⟩, ⟨10, 2, 10, 3, []⟩, ""⟩,
      ⟨⟨path, 4, 1, .plain "d", some 7⟩, ⟨11, 1, 11, 2, []⟩, ""⟩]⟩]⟩
    (∀ file ∈ report.files, '\n' ∉ file.path.chars) ∧
      Text.splitAt '\n' (format .machine report (.ofReport report ⟨1, 2, 0, 0⟩)).toList =
        ["ERROR /p/a.ts:10:2 a".toList, "ERROR /p/a.ts:11:1 d (TS7)".toList, []] := by
  intro path explained report
  have hpaths : ∀ file ∈ report.files, '\n' ∉ file.path.chars := by decide
  have hmessages : ∀ entry ∈ report.entries, '\n' ∉ entry.2.diagnostic.message.text.toList := by
    decide
  have hlines := (format_machine_records hpaths (.ofReport report ⟨1, 2, 0, 0⟩)).2.2.2.2 hmessages
  exact ⟨hpaths, hlines.trans (by decide +kernel)⟩

/-- A break at the end of a message takes the code off its record. -/
theorem format_machine_split_record :
    let path : Path := ⟨"/p/a.ts"⟩
    let report : Report := ⟨[⟨path, [⟨⟨path, 0, 1, .plain "a\n", some 1⟩, ⟨1, 1, 1, 2, []⟩, ""⟩]⟩]⟩
    (∀ file ∈ report.files, '\n' ∉ file.path.chars) ∧ report.errorCount = 1 ∧
      Text.splitAt '\n' (format .machine report (.ofReport report ⟨1, 1, 0, 0⟩)).toList =
        ["ERROR /p/a.ts:1:1 a".toList, " (TS1)".toList, []] := by
  intro path report
  exact ⟨by decide, rfl, by decide +kernel⟩

end Output

end ScopedCheck

import ScopedCheck.Proofs.Check.Stages

/-!
# What a check counts

The summary counts files in three places: those that were asked for, those
whose errors were ignored, and those that are reported.  All of them count the
same spellings, so that the last two are apart within the first.
-/

namespace ScopedCheck

namespace Check

/-! ## Listed files -/

open Classical in
/-- The requested files that a build info lists an error of. -/
noncomputable def listedFiles (files : List Path) (root base : Path) (text : String) :
    Finset Path :=
  (requestedFiles files root).filter fun file => BuildInfo.Lists text base file

theorem mem_listedFiles {files : List Path} {root base file : Path} {text : String} :
    file ∈ listedFiles files root base text ↔
      file ∈ requestedFiles files root ∧ BuildInfo.Lists text base file := by
  classical
  exact Finset.mem_filter

theorem card_listedFiles_le (files : List Path) (root base : Path) (text : String) :
    (listedFiles files root base text).card ≤ (requestedFiles files root).card := by
  classical
  exact Finset.card_filter_le _ _

/-- A selection looks at every listed file once. -/
theorem nodup_relevant {base : Path} {text : String} {raw : RawSet}
    (h : BuildInfo.ofText text base = .ok raw) (requested : List Path) :
    ((Selection.relevant raw requested).map (·.1)).Nodup := by
  have hfiles : raw.files.map (fun file => (file.1.normalize, file.2)) = raw.files := by
    refine (List.map_congr_left ?_).trans (List.map_id raw.files)
    intro file hmem
    have hpath : file.1.IsNormal :=
      BuildInfo.isNormal_of_mem_keys_ofText h (List.mem_map.2 ⟨file, hmem, rfl⟩)
    exact Prod.ext hpath rfl
  have hkeys : (raw.files.map (·.1)).Nodup := Path.nodup_of_apart (BuildInfo.apart_keys_ofText h)
  have hrelevant : Selection.relevant raw requested =
      (raw.files.map fun file => (file.1.normalize, file.2)).filter
        fun file => !file.2.isEmpty && Selection.isRequested requested file.1 := rfl
  rw [hrelevant, hfiles]
  exact hkeys.sublist (List.filter_sublist.map _)

/-! ## Counters -/

theorem ignoredFiles_ofRaw {files : List Path} {root base : Path} {text : String} {raw : RawSet}
    (h : BuildInfo.ofText text base = .ok raw) (ignore : IgnoreList) :
    (Selection.ofRaw raw (inputFiles files root) ignore).stats.ignoredFiles =
      ((listedFiles files root base text).filter
        fun file => ignore.isIgnored file = true).card := by
  let ignored := (Selection.relevant raw (inputFiles files root)).filter
    fun file => ignore.isIgnored file.1
  have hnodup : (ignored.map (·.1)).Nodup :=
    (nodup_relevant h _).sublist (List.filter_sublist.map _)
  have hset : (ignored.map (·.1)).toFinset =
      (listedFiles files root base text).filter fun file => ignore.isIgnored file = true := by
    ext file
    rw [Finset.mem_filter, mem_listedFiles, ← mem_relevant_inputFiles h]
    simp [ignored]
  calc
    (Selection.ofRaw raw (inputFiles files root) ignore).stats.ignoredFiles = ignored.length := rfl
    _ = (ignored.map (·.1)).length := by rw [List.length_map]
    _ = _ := by rw [← hset, List.toFinset_card_of_nodup hnodup]

theorem fileCount_ofRaw {files : List Path} {root base : Path} {text : String} {raw : RawSet}
    (h : BuildInfo.ofText text base = .ok raw) {ignore : IgnoreList} {read : SourceReader}
    {context : Nat} {report : Report}
    (hbuilt : (Report.build (Selection.ofRaw raw (inputFiles files root) ignore).diagnostics read
      context).2 = .ok report) :
    report.fileCount =
      ((listedFiles files root base text).filter
        fun file => ¬ignore.isIgnored file = true).card := by
  have hset :
      ((Selection.ofRaw raw (inputFiles files root) ignore).diagnostics.map (·.file)).toFinset =
        (listedFiles files root base text).filter fun file => ¬ignore.isIgnored file = true := by
    ext file
    rw [List.mem_toFinset, Selection.mem_map_file_ofRaw, mem_relevant_inputFiles h,
      Finset.mem_filter, mem_listedFiles, Bool.not_eq_true]
  have hnormal : ∀ diagnostic ∈ (Selection.ofRaw raw (inputFiles files root) ignore).diagnostics,
      diagnostic.file.IsNormal := fun _ hmem => Selection.isNormal_of_mem_ofRaw hmem
  rw [Report.fileCount_of_build hbuilt hnormal, hset]

theorem finish_accounts {read : SourceReader} {context : Nat} {format : OutputFormat}
    {files : List Path} {root base : Path} {ignore : IgnoreList} {text : String}
    {summary : Summary} {output : String}
    (h : (finish read context format (inputFiles files root) ignore base text).2 =
      .ok (summary, output)) :
    summary.errorCount + summary.stats.ignoredErrors = summary.stats.totalErrors ∧
      summary.errorFileCount + summary.stats.ignoredFiles ≤ summary.stats.totalFiles ∧
      summary.stats.totalFiles = (requestedFiles files root).card ∧
      summary.stats.ignoredFiles =
        ((listedFiles files root base text).filter
          fun file => ignore.isIgnored file = true).card ∧
      summary.errorFileCount =
        ((listedFiles files root base text).filter
          fun file => ¬ignore.isIgnored file = true).card ∧
      (summary.status = .failed ↔ 0 < summary.errorCount) ∧
      (0 < summary.errorCount ↔ 0 < summary.errorFileCount) := by
  obtain ⟨raw, report, hraw, hbuilt, rfl, _⟩ := finish_eq_ok h
  let selection := Selection.ofRaw raw (inputFiles files root) ignore
  have herrors : report.errorCount = selection.diagnostics.length :=
    Report.errorCount_of_build hbuilt
  have htotal : selection.stats.totalErrors =
      selection.diagnostics.length + selection.stats.ignoredErrors :=
    Selection.totalErrors_ofRaw raw (inputFiles files root) ignore
  have hrequested : selection.stats.totalFiles = (requestedFiles files root).card :=
    length_inputFiles files root
  have hignored : selection.stats.ignoredFiles =
      ((listedFiles files root base text).filter
        fun file => ignore.isIgnored file = true).card := ignoredFiles_ofRaw hraw ignore
  have hreported := fileCount_ofRaw hraw hbuilt
  have hsplit := Finset.card_filter_add_card_filter_not (s := listedFiles files root base text)
    (fun file => ignore.isIgnored file = true)
  have hlisted := card_listedFiles_le files root base text
  have hstatus : (Summary.ofReport report selection.stats).status = .failed ↔
      0 < report.errorCount := by
    rw [← Summary.hasFailed_iff, Summary.hasFailed_ofReport]
  have hfiles : 0 < report.errorCount ↔ 0 < report.fileCount :=
    Report.errorCount_pos_iff hbuilt fun _ hmem => Selection.isNormal_of_mem_ofRaw hmem
  refine ⟨?_, ?_, hrequested, hignored, hreported, hstatus, hfiles⟩
  · change report.errorCount + selection.stats.ignoredErrors = selection.stats.totalErrors
    omega
  · change report.fileCount + selection.stats.ignoredFiles ≤ selection.stats.totalFiles
    omega

/-- Of four requested files one is ignored and one reported; a file nobody asked for has no part. -/
theorem finish_accounts_mixed :
    let text := "\x7b\"fileNames\":[\"../a.ts\",\".././b.ts\",\"/q/z.ts\"]," ++
      "\"semanticDiagnosticsPerFile\":[[1,[[null,0,1,\"e\",2]]],3," ++
      "[2,[[null,0,1,\"e\",2],[null,1,1,\"f\",null]]],[3,[[null,0,1,\"e\",2]]]]\x7d"
    let files : List Path := [⟨"a.ts"⟩, ⟨"./b.ts"⟩, ⟨"x.js"⟩, ⟨"c/../b.ts"⟩, ⟨"c.tsx"⟩]
    let ignore : IgnoreList := ⟨⟨"/p"⟩, [⟨"/p/a.ts"⟩], []⟩
    let summary : Summary := ⟨.failed, ⟨3, 3, 1, 1⟩, 2, 1⟩
    let output := "ERROR /p/b.ts:1:1 e (TS2)\nERROR /p/b.ts:1:2 f\n"
    (finish (fun _ => .ok "xy") 0 .machine (inputFiles files ⟨"/p"⟩) ignore ⟨"/p/out"⟩ text).2 =
        .ok (summary, output) ∧
      summary.stats.totalFiles = (requestedFiles files ⟨"/p"⟩).card ∧
      summary.errorFileCount + summary.stats.ignoredFiles ≤ summary.stats.totalFiles := by
  intro text files ignore summary output
  have hfinish : (finish (fun _ => .ok "xy") 0 .machine (inputFiles files ⟨"/p"⟩) ignore
      ⟨"/p/out"⟩ text).2 = .ok (summary, output) :=
    eq_ok_of_toOption (by decide +kernel +zetaReduce)
  have haccounts := finish_accounts hfinish
  exact ⟨hfinish, haccounts.2.2.1, haccounts.2.1⟩

end Check

end ScopedCheck

import ScopedCheck.Check
import ScopedCheck.Proofs.Compiler.BuildInfo
import ScopedCheck.Proofs.Diagnostic.Report
import ScopedCheck.Proofs.Diagnostic.Selection

/-!
# Stages of a check

A check ends before the compiler starts, or with what the end of the compiler
makes of it.  In the second case a readable build info decides everything:
its diagnostics are selected, reported and printed.
-/

namespace ScopedCheck

namespace Check

/-! ## Requested files -/

def requestedFiles (files : List Path) (root : Path) : Finset Path :=
  ((files.filter Path.isTypeScript).map (·.absolutize root)).toFinset

theorem mem_requestedFiles {files : List Path} {root file : Path} :
    file ∈ requestedFiles files root ↔
      ∃ argument ∈ files, argument.isTypeScript = true ∧ argument.absolutize root = file := by
  simp [requestedFiles, and_assoc]

theorem isNormal_of_mem_requestedFiles {files : List Path} {root file : Path}
    (h : file ∈ requestedFiles files root) : file.IsNormal := by
  obtain ⟨argument, _, _, rfl⟩ := mem_requestedFiles.1 h
  exact Path.isNormal_absolutize argument root

theorem isNormal_of_mem_absolutized {files : List Path} {root : Path} :
    ∀ path ∈ (files.filter Path.isTypeScript).map (·.absolutize root), path.IsNormal := by
  intro path hmem
  exact isNormal_of_mem_requestedFiles (List.mem_toFinset.2 hmem)

theorem mem_inputFiles {files : List Path} {root file : Path} :
    file ∈ inputFiles files root ↔ file ∈ requestedFiles files root := by
  rw [inputFiles, Path.mem_distinct_iff isNormal_of_mem_absolutized, requestedFiles,
    List.mem_toFinset]

theorem length_inputFiles (files : List Path) (root : Path) :
    (inputFiles files root).length = (requestedFiles files root).card :=
  Path.length_distinct isNormal_of_mem_absolutized

/-- Taking the normal form of the requested files once more changes none of them. -/
theorem exists_normalize_inputFiles {files : List Path} {root file : Path} :
    (∃ asked ∈ inputFiles files root, asked.normalize = file) ↔
      file ∈ requestedFiles files root := by
  constructor
  · rintro ⟨asked, hasked, rfl⟩
    have hmem := mem_inputFiles.1 hasked
    rwa [isNormal_of_mem_requestedFiles hmem]
  · intro hmem
    exact ⟨file, mem_inputFiles.2 hmem, isNormal_of_mem_requestedFiles hmem⟩

theorem filter_isTypeScript_inputFiles (files : List Path) (root : Path) :
    (inputFiles files root).filter Path.isTypeScript = inputFiles files root := by
  refine List.filter_eq_self.2 ?_
  intro file hmem
  obtain ⟨argument, _, htype, rfl⟩ := mem_requestedFiles.1 (mem_inputFiles.1 hmem)
  exact Path.isTypeScript_absolutize root htype

theorem inputFiles_eq_nil_iff {files : List Path} {root : Path} :
    inputFiles files root = [] ↔ ∀ argument ∈ files, argument.isTypeScript = false := by
  rw [List.eq_nil_iff_forall_not_mem]
  constructor
  · intro h argument hmem
    rw [Bool.eq_false_iff]
    intro htype
    exact h _ (mem_inputFiles.2 (mem_requestedFiles.2 ⟨argument, hmem, htype, rfl⟩))
  · intro h file hmem
    obtain ⟨argument, hargument, htype, _⟩ := mem_requestedFiles.1 (mem_inputFiles.1 hmem)
    simp [h argument hargument] at htype

/-- A selection looks at the requested files that the build info lists an error of. -/
theorem mem_relevant_inputFiles {files : List Path} {root base file : Path} {text : String}
    {raw : RawSet} (h : BuildInfo.ofText text base = .ok raw) :
    (∃ entries, (file, entries) ∈ Selection.relevant raw (inputFiles files root)) ↔
      file ∈ requestedFiles files root ∧ BuildInfo.Lists text base file := by
  constructor
  · rintro ⟨entries, hmem⟩
    obtain ⟨⟨path, hraw, rfl⟩, hne, hasked⟩ := Selection.mem_relevant.1 hmem
    have hpath : path.IsNormal :=
      BuildInfo.isNormal_of_mem_keys_ofText h (List.mem_map.2 ⟨(path, entries), hraw, rfl⟩)
    have hrequested := exists_normalize_inputFiles.1 hasked
    rw [hpath] at hrequested ⊢
    exact ⟨hrequested, (BuildInfo.lists_iff_mem h hpath).2 ⟨entries, hraw, hne⟩⟩
  · rintro ⟨hrequested, hlists⟩
    have hfile := isNormal_of_mem_requestedFiles hrequested
    obtain ⟨entries, hraw, hne⟩ := (BuildInfo.lists_iff_mem h hfile).1 hlists
    have hasked := exists_normalize_inputFiles.2 hrequested
    exact ⟨entries, Selection.mem_relevant.2 ⟨⟨file, hraw, hfile⟩, hne, hasked⟩⟩

/-! ## From a build info to what is printed -/

/-- The sources that a build info makes a check ask for, and the summary and text it ends with. -/
def finish (read : SourceReader) (context : Nat) (format : OutputFormat) (files : List Path)
    (ignore : IgnoreList) (base : Path) (text : String) :
    List Path × Except CheckError (Summary × String) :=
  match BuildInfo.ofText text base with
  | .error cause => ([], .error (.compiler (.buildInfo cause)))
  | .ok raw =>
      let (asked, found) := concluded read context files ignore raw
      (asked, found.map fun (report, summary) => (summary, Output.format format report summary))

theorem concluded_eq_ok {read : SourceReader} {context : Nat} {files : List Path}
    {ignore : IgnoreList} {raw : RawSet} {report : Report} {summary : Summary}
    (h : (concluded read context files ignore raw).2 = .ok (report, summary)) :
    (Report.build (Selection.ofRaw raw files ignore).diagnostics read context).2 = .ok report ∧
      summary = Summary.ofReport report (Selection.ofRaw raw files ignore).stats := by
  unfold concluded at h
  cases hbuilt : (Report.build (Selection.ofRaw raw files ignore).diagnostics read context).2 with
  | error cause => simp [hbuilt] at h
  | ok built =>
      simp only [hbuilt, Except.ok.injEq, Prod.mk.injEq] at h
      obtain ⟨rfl, rfl⟩ := h
      exact ⟨rfl, rfl⟩

theorem finish_eq_ok {read : SourceReader} {context : Nat} {format : OutputFormat}
    {files : List Path} {ignore : IgnoreList} {base : Path} {text : String} {summary : Summary}
    {output : String}
    (h : (finish read context format files ignore base text).2 = .ok (summary, output)) :
    ∃ raw report, BuildInfo.ofText text base = .ok raw ∧
      (Report.build (Selection.ofRaw raw files ignore).diagnostics read context).2 = .ok report ∧
      summary = Summary.ofReport report (Selection.ofRaw raw files ignore).stats ∧
      output = Output.format format report summary := by
  unfold finish at h
  cases hraw : BuildInfo.ofText text base with
  | error cause => simp [hraw] at h
  | ok raw =>
      rw [hraw] at h
      obtain ⟨⟨report, concludedSummary⟩, hfound, heq⟩ := exists_ok_of_map h
      obtain ⟨rfl, rfl⟩ := Prod.mk.inj heq
      obtain ⟨hbuilt, hsummary⟩ := concluded_eq_ok hfound
      exact ⟨raw, report, rfl, hbuilt, hsummary, rfl⟩

/-! ## From the arguments to the compiler -/

/-- The directory that the relative paths of a build info are below. -/
def outputDirectory (env : Environment) : Path :=
  (env.absolute env.workingDirectory).join env.fresh.outputName

def configOf (env : Environment) (arguments : Arguments) : Config :=
  Config.load env (arguments.config.absolutize env.workingDirectory)

/-- What a check makes of the end of the compiler. -/
def ended (env : Environment) (arguments : Arguments) (ignore : IgnoreList)
    (finished : CompilerExit) : Except CheckError (Report × Summary) :=
  match Project.outcomeOf finished (outputDirectory env) with
  | .error cause => .error (.compiler cause)
  | .ok outcome =>
      resultOf env arguments (inputFiles arguments.files env.workingDirectory) ignore outcome

theorem plan_eq_ok {env : Environment} {arguments : Arguments} {config : Config}
    {project : Project} {ignore : IgnoreList}
    (h : plan env arguments config = .ok (project, ignore)) :
    project.root = env.workingDirectory ∧
      ignoreList arguments config env.workingDirectory = .ok ignore := by
  unfold plan at h
  obtain ⟨rules, hrules, hplanned⟩ := exists_ok_of_bind h
  have hignore := eq_ok_of_mapError hrules
  cases hcompiler : compilerPath? env arguments with
  | none =>
      rw [hcompiler] at hplanned
      cases hplanned
  | some compiler =>
      rw [hcompiler] at hplanned
      obtain ⟨rfl, rfl⟩ := Prod.mk.inj (Except.ok.inj hplanned)
      exact ⟨rfl, hignore⟩

theorem check_cases (env : Environment) (compiler : CompilerBehavior) (project : Project)
    (alwaysInclude : List String) {files : List Path}
    (htype : files.filter Path.isTypeScript = files) (hne : files ≠ []) :
    (∃ cause, project.check env compiler files alwaysInclude = (none, .error cause)) ∨
      ∃ invocation, project.check env compiler files alwaysInclude =
        (some invocation,
          Project.outcomeOf (compiler invocation) (project.outputDirectory env)) := by
  have hempty : files.isEmpty = false := List.isEmpty_eq_false_iff.2 hne
  unfold Project.check
  rw [htype]
  simp only [hempty, Bool.false_eq_true, if_false]
  cases project.prepare env files alwaysInclude with
  | error cause => exact .inl ⟨cause, rfl⟩
  | ok invocation => exact .inr ⟨invocation, rfl⟩

/-- A check has nothing to do, fails before the compiler starts, or goes by the compiler's end. -/
theorem run_cases (env : Environment) (compiler : CompilerBehavior) (arguments : Arguments) :
    (inputFiles arguments.files env.workingDirectory = [] ∧
        run env compiler arguments = ⟨none, .ok (.empty, .clean .skipped 0)⟩) ∨
      inputFiles arguments.files env.workingDirectory ≠ [] ∧
        ((∃ cause, run env compiler arguments = ⟨none, .error cause⟩) ∨
          ∃ ignore invocation,
            ignoreList arguments (configOf env arguments) env.workingDirectory = .ok ignore ∧
              run env compiler arguments =
                ⟨some invocation, ended env arguments ignore (compiler invocation)⟩) := by
  by_cases hfiles : inputFiles arguments.files env.workingDirectory = []
  · refine .inl ⟨hfiles, ?_⟩
    simp [run, hfiles]
  · refine .inr ⟨hfiles, ?_⟩
    have hempty : (inputFiles arguments.files env.workingDirectory).isEmpty = false :=
      List.isEmpty_eq_false_iff.2 hfiles
    unfold run
    simp only [hempty, Bool.false_eq_true, if_false]
    cases hplan : plan env arguments
        (Config.load env (arguments.config.absolutize env.workingDirectory)) with
    | error cause => exact .inl ⟨cause, rfl⟩
    | ok planned =>
        obtain ⟨project, ignore⟩ := planned
        obtain ⟨hroot, hignore⟩ := plan_eq_ok hplan
        have hdirectory : project.outputDirectory env = outputDirectory env := by
          rw [Project.outputDirectory, hroot, outputDirectory]
        -- The compiler's own choice of files leaves nothing out, so it has something to do.
        rcases check_cases env compiler project (configOf env arguments).alwaysInclude
            (filter_isTypeScript_inputFiles arguments.files env.workingDirectory) hfiles with
          ⟨cause, hcheck⟩ | ⟨invocation, hcheck⟩
        · refine .inl ⟨.compiler cause, ?_⟩
          rw [configOf] at hcheck
          simp only [hcheck]
        · refine .inr ⟨ignore, invocation, hignore, ?_⟩
          rw [configOf, hdirectory] at hcheck
          simp only [hcheck, ended]
          cases Project.outcomeOf (compiler invocation) (outputDirectory env) with
          | error cause => rfl
          | ok outcome => rfl

/-! ## From the end of the compiler to the build info -/

/-- What a compiler left behind, when it is text that has more than white space. -/
def LeftText (finished : CompilerExit) (text : List Char) : Prop :=
  ∃ bytes, finished.buildInfo = some bytes ∧ Utf8.decode? bytes = some text ∧
    Text.isAllBlank text = false

theorem readBuildInfo_of_leftText {finished : CompilerExit} {text : List Char}
    (h : LeftText finished text) (base : Path) :
    Project.readBuildInfo finished.buildInfo base =
      match BuildInfo.ofText (String.ofList text) base with
      | .ok raw => .ok (.diagnostics raw)
      | .error cause => .error (.buildInfo cause) := by
  obtain ⟨bytes, hbytes, htext, hblank⟩ := h
  have hread : finished.buildInfo.bind Utf8.decode? = some text := by
    rw [hbytes, Option.bind_some, htext]
  have hshown : ¬Text.isAllBlank text = true := by simp [hblank]
  unfold Project.readBuildInfo
  rw [hread]
  exact if_neg hshown

theorem readBuildInfo_of_not_leftText {finished : CompilerExit}
    (h : ∀ text, ¬LeftText finished text) (base : Path) :
    Project.readBuildInfo finished.buildInfo base = .ok .missingOutput := by
  unfold Project.readBuildInfo
  cases hbytes : finished.buildInfo with
  | none => rfl
  | some bytes =>
      cases htext : Utf8.decode? bytes with
      | none => simp [htext]
      | some text =>
          cases hblank : Text.isAllBlank text with
          | true => simp [htext, hblank]
          | false => exact absurd ⟨bytes, hbytes, htext, hblank⟩ (h text)

/-- Once the compiler failed and left a text behind, a check prints what the text makes of it. -/
theorem ended_of_leftText {env : Environment} {arguments : Arguments} {finished : CompilerExit}
    {text : List Char} (hfailed : finished.success = false) (h : LeftText finished text)
    (ignore : IgnoreList) :
    (ended env arguments ignore finished).map (fun (report, summary) =>
        (summary, Output.format arguments.output report summary)) =
      (finish env.readSource arguments.context arguments.output
        (inputFiles arguments.files env.workingDirectory) ignore (outputDirectory env)
        (String.ofList text)).2 := by
  unfold ended finish Project.outcomeOf
  rw [readBuildInfo_of_leftText h]
  simp only [hfailed, Bool.false_eq_true, if_false]
  cases BuildInfo.ofText (String.ofList text) (outputDirectory env) with
  | error cause => rfl
  | ok raw => rfl

end Check

end ScopedCheck

import ScopedCheck.Command
import ScopedCheck.Proofs.Check.Stages

/-!
# When a check fails

A check fails for one reason only: the compiler failed, what it left behind can
be read, and it lists an error of a requested file that no rule ignores.
-/

namespace ScopedCheck

/-- A result that is an error adds nothing to what was printed before. -/
theorem CheckResult.print_of_error {result : CheckResult} {cause : CheckError}
    (h : result.found = .error cause) (format : OutputFormat) (before : String) :
    (result.print format).run.run before = (.error cause, before) := by
  unfold print
  rw [h]
  rfl

namespace Check

/-! ## The reason for a failure -/

/-- Whether the rules of the configuration, if they apply, spare a file. -/
def Counts (env : Environment) (arguments : Arguments) (file : Path) : Prop :=
  arguments.ignore = true →
    ∃ rules, IgnoreList.compile (configOf env arguments).ignore env.workingDirectory = .ok rules ∧
      rules.isIgnored file = false

def HasError (env : Environment) (arguments : Arguments) (text : List Char) : Prop :=
  ∃ file, BuildInfo.Lists (String.ofList text) (outputDirectory env) file ∧
    (∃ argument ∈ arguments.files, argument.isTypeScript = true ∧
      argument.absolutize env.workingDirectory = file) ∧
    Counts env arguments file

/-- Whether there is a reason for a check to fail. -/
def MustFail (env : Environment) (compiler : CompilerBehavior) (arguments : Arguments) : Prop :=
  (∃ argument ∈ arguments.files, argument.isTypeScript = true) ∧
    ∃ invocation text, (run env compiler arguments).invocation = some invocation ∧
      (compiler invocation).success = false ∧ LeftText (compiler invocation) text ∧
      HasError env arguments text

theorem counts_iff {env : Environment} {arguments : Arguments} {ignore : IgnoreList}
    (h : ignoreList arguments (configOf env arguments) env.workingDirectory = .ok ignore)
    (file : Path) : Counts env arguments file ↔ ignore.isIgnored file = false := by
  unfold Counts
  unfold ignoreList at h
  cases hflag : arguments.ignore with
  | false =>
      simp only [hflag, Bool.false_eq_true, if_false, Except.ok.injEq] at h
      subst h
      simp [IgnoreList.isIgnored_disabled]
  | true =>
      simp only [hflag, if_true] at h
      constructor
      · intro hcounts
        obtain ⟨rules, hrules, hspared⟩ := hcounts rfl
        have heq : rules = ignore := Except.ok.inj (hrules.symm.trans h)
        rwa [heq] at hspared
      · intro hspared _
        exact ⟨ignore, h, hspared⟩

theorem exists_isTypeScript_iff (files : List Path) (root : Path) :
    (∃ argument ∈ files, argument.isTypeScript = true) ↔ inputFiles files root ≠ [] := by
  rw [Ne, inputFiles_eq_nil_iff]
  simp

/-! ## What is selected -/

/-- Some diagnostic is selected exactly when an error counts. -/
theorem diagnostics_ne_nil_iff {env : Environment} {arguments : Arguments} {ignore : IgnoreList}
    (hignore : ignoreList arguments (configOf env arguments) env.workingDirectory = .ok ignore)
    {text : List Char} {raw : RawSet}
    (hraw : BuildInfo.ofText (String.ofList text) (outputDirectory env) = .ok raw) :
    (Selection.ofRaw raw (inputFiles arguments.files env.workingDirectory) ignore).diagnostics ≠
        [] ↔ HasError env arguments text := by
  have hfiles : ∀ file : Path, (∃ entries, (file, entries) ∈
      Selection.relevant raw (inputFiles arguments.files env.workingDirectory)) ↔
      file ∈ requestedFiles arguments.files env.workingDirectory ∧
        BuildInfo.Lists (String.ofList text) (outputDirectory env) file :=
    fun _ => mem_relevant_inputFiles hraw
  constructor
  · intro hne
    obtain ⟨diagnostic, hmem⟩ := List.exists_mem_of_ne_nil _ hne
    obtain ⟨hrelevant, hspared⟩ :=
      Selection.mem_map_file_ofRaw.1 (List.mem_map.2 ⟨diagnostic, hmem, rfl⟩)
    obtain ⟨hrequested, hlists⟩ := (hfiles diagnostic.file).1 hrelevant
    exact ⟨diagnostic.file, hlists, mem_requestedFiles.1 hrequested,
      (counts_iff hignore diagnostic.file).2 hspared⟩
  · rintro ⟨file, hlists, hargument, hcounts⟩
    have hrelevant := (hfiles file).2 ⟨mem_requestedFiles.2 hargument, hlists⟩
    have hmem := Selection.mem_map_file_ofRaw.2 ⟨hrelevant, (counts_iff hignore file).1 hcounts⟩
    obtain ⟨diagnostic, hdiagnostic, _⟩ := List.mem_map.1 hmem
    exact List.ne_nil_of_mem hdiagnostic

/-! ## Summaries -/

def IsClean (summary : Summary) : Prop :=
  summary.errorCount = 0 ∧
    (summary.status = .skipped ∨ summary.status = .missingOutput ∨ summary.status = .passed)

theorem isClean_clean {status : Status} (h : status ≠ .failed) (totalFiles : Nat) :
    IsClean (.clean status totalFiles) := by
  refine ⟨rfl, ?_⟩
  cases status with
  | failed => exact absurd rfl h
  | skipped | missingOutput | passed => simp [Summary.clean]

theorem hasFailed_clean {status : Status} (h : status ≠ .failed) (totalFiles : Nat) :
    (Summary.clean status totalFiles).hasFailed = false := by
  rw [Bool.eq_false_iff]
  intro hfailed
  exact h ((Summary.hasFailed_iff _).1 hfailed)

theorem isClean_ofReport {report : Report} {stats : Statistics}
    (h : (Summary.ofReport report stats).hasFailed = false) :
    IsClean (.ofReport report stats) := by
  have hcount : report.errorCount = 0 := by
    have hnot : ¬0 < report.errorCount := by
      rw [← Summary.hasFailed_ofReport report stats, h]
      exact Bool.false_ne_true
    omega
  exact ⟨hcount, by simp [Summary.ofReport, hcount]⟩

/-! ## The end of the compiler -/

/-- A check that goes by the compiler's end reports nothing, or reports a build info. -/
theorem ended_eq_ok {env : Environment} {arguments : Arguments} {ignore : IgnoreList}
    {finished : CompilerExit} {report : Report} {summary : Summary}
    (h : ended env arguments ignore finished = .ok (report, summary)) :
    ((finished.success = true ∨ ∀ text, ¬LeftText finished text) ∧
        ∃ status totalFiles, status ≠ .failed ∧ summary = .clean status totalFiles) ∨
      finished.success = false ∧ ∃ text raw, LeftText finished text ∧
        BuildInfo.ofText (String.ofList text) (outputDirectory env) = .ok raw ∧
        (concluded env.readSource arguments.context
          (inputFiles arguments.files env.workingDirectory) ignore raw).2 =
            .ok (report, summary) := by
  unfold ended Project.outcomeOf at h
  cases hsuccess : finished.success with
  | true =>
      simp only [hsuccess, if_true, resultOf, Except.ok.injEq, Prod.mk.injEq] at h
      exact .inl ⟨.inl rfl, .passed, _, by decide, h.2.symm⟩
  | false =>
      simp only [hsuccess, Bool.false_eq_true, if_false] at h
      by_cases hleft : ∃ text, LeftText finished text
      · obtain ⟨text, htext⟩ := hleft
        rw [readBuildInfo_of_leftText htext] at h
        cases hraw : BuildInfo.ofText (String.ofList text) (outputDirectory env) with
        | error cause => simp [hraw] at h
        | ok raw =>
            simp only [hraw, resultOf, reportOf] at h
            exact .inr ⟨rfl, text, raw, htext, hraw, h⟩
      · have hnone : ∀ text, ¬LeftText finished text := fun text htext => hleft ⟨text, htext⟩
        rw [readBuildInfo_of_not_leftText hnone] at h
        simp only [resultOf, Except.ok.injEq, Prod.mk.injEq] at h
        exact .inl ⟨.inr hnone, .missingOutput, _, by decide, h.2.symm⟩

theorem LeftText.unique {finished : CompilerExit} {a b : List Char} (ha : LeftText finished a)
    (hb : LeftText finished b) : a = b := by
  obtain ⟨bytes, hbytes, htext, _⟩ := ha
  obtain ⟨others, hothers, hother, _⟩ := hb
  have hsame : bytes = others := Option.some.inj (hbytes.symm.trans hothers)
  rw [hsame] at htext
  exact Option.some.inj (htext.symm.trans hother)

theorem ended_verdict {env : Environment} {arguments : Arguments} {ignore : IgnoreList}
    (hignore : ignoreList arguments (configOf env arguments) env.workingDirectory = .ok ignore)
    {finished : CompilerExit} {report : Report} {summary : Summary}
    (h : ended env arguments ignore finished = .ok (report, summary)) :
    (summary.hasFailed = true ↔ finished.success = false ∧
        ∃ text, LeftText finished text ∧ HasError env arguments text) ∧
      (summary.hasFailed = false → IsClean summary) := by
  rcases ended_eq_ok h with
    ⟨hnothing, status, totalFiles, hstatus, rfl⟩ | ⟨hfailed, text, raw, htext, hraw, hresult⟩
  · refine ⟨?_, fun _ => isClean_clean hstatus totalFiles⟩
    rw [hasFailed_clean hstatus totalFiles]
    constructor
    · intro hfalse
      exact absurd hfalse Bool.false_ne_true
    · rintro ⟨hfailed, text, htext, _⟩
      rcases hnothing with hsuccess | hnone
      · exact absurd (hsuccess.symm.trans hfailed) (by decide)
      · exact absurd htext (hnone text)
  · obtain ⟨hbuilt, rfl⟩ := concluded_eq_ok hresult
    refine ⟨?_, isClean_ofReport⟩
    rw [Summary.hasFailed_ofReport, Report.errorCount_of_build hbuilt, List.length_pos_iff,
      diagnostics_ne_nil_iff hignore hraw]
    constructor
    · intro herror
      exact ⟨hfailed, text, htext, herror⟩
    · rintro ⟨_, other, hother, herror⟩
      rwa [htext.unique hother]

/-! ## The verdict -/

/--
A check fails exactly when there is a reason to.

Otherwise it reports nothing; the compiler is started whenever a file that it checks is
requested; and an error leaves the output empty.
-/
theorem run_verdict (env : Environment) (compiler : CompilerBehavior) (arguments : Arguments) :
    (∀ report summary, (run env compiler arguments).found = .ok (report, summary) →
      (summary.hasFailed = true ↔ MustFail env compiler arguments) ∧
        (summary.hasFailed = false → IsClean summary) ∧
        ((run env compiler arguments).invocation.isSome = true ↔
          ∃ argument ∈ arguments.files, argument.isTypeScript = true)) ∧
      ∀ cause format, (run env compiler arguments).found = .error cause →
        (run env compiler arguments).stdout format = "" ∧
          (Command.conclusion (run env compiler arguments) format).stdout = "" := by
  constructor
  · intro report summary hfound
    have hasked := exists_isTypeScript_iff arguments.files env.workingDirectory
    rcases run_cases env compiler arguments with
      ⟨hnone, hrun⟩ | ⟨hsome, ⟨cause, hrun⟩ | ⟨ignore, invocation, hignore, hrun⟩⟩
    · rw [hrun] at hfound
      obtain ⟨rfl, rfl⟩ := Prod.mk.inj (Except.ok.inj hfound)
      refine ⟨?_, fun _ => isClean_clean (by decide) 0, ?_⟩
      · rw [hasFailed_clean (by decide)]
        constructor
        · intro hfalse
          exact absurd hfalse Bool.false_ne_true
        · rintro ⟨hargument, _⟩
          exact absurd hnone (hasked.1 hargument)
      · rw [hasked, hrun]
        simp [hnone]
    · rw [hrun] at hfound
      simp at hfound
    · have hended : ended env arguments ignore (compiler invocation) = .ok (report, summary) := by
        rwa [hrun] at hfound
      obtain ⟨hfails, hclean⟩ := ended_verdict hignore hended
      refine ⟨?_, hclean, ?_⟩
      · rw [hfails, MustFail, hrun]
        constructor
        · rintro ⟨hfailed, text, htext, herror⟩
          exact ⟨hasked.2 hsome, invocation, text, rfl, hfailed, htext, herror⟩
        · rintro ⟨_, started, text, hstarted, hfailed, htext, herror⟩
          obtain rfl := Option.some.inj hstarted
          exact ⟨hfailed, text, htext, herror⟩
      · rw [hasked, hrun]
        simp [hsome]
  · intro cause format hfound
    refine ⟨?_, ?_⟩
    · rw [CheckResult.stdout, CheckResult.print_of_error hfound]
    · rw [Command.conclusion, CheckResult.print_of_error hfound]

/-- A check of one file fails by an error that is listed under another spelling of it. -/
theorem run_verdict_failed :
    let tree := ((FileTree.empty.addFile ⟨"/p/tsc"⟩ [] true).addFile ⟨"/p/tsconfig.json"⟩
      (Utf8.encode ['{', '}']) false).addFile ⟨"/p/a.ts"⟩ (Utf8.encode ['x']) false
    let env : Environment := ⟨tree, ⟨"/p"⟩, [], ⟨"/"⟩, ⟨"Zk3q9a", "0xPw7B"⟩⟩
    let text := "\x7b\"semanticDiagnosticsPerFile\":[[\"../a.ts\",[[null,0,1,\"e\"]]]]\x7d"
    let compiler : CompilerBehavior := fun _ => ⟨false, some (Utf8.encode text.toList)⟩
    let arguments : Arguments :=
      { files := [⟨"./a.ts"⟩], ignore := true, compiler := some ⟨"tsc"⟩ }
    ∃ report summary, (run env compiler arguments).found = .ok (report, summary) ∧
      summary.hasFailed = true ∧ MustFail env compiler arguments := by
  intro tree env text compiler arguments
  have hrun : (run env compiler arguments).found.toOption.map (·.2.hasFailed) = some true := by
    decide +kernel +zetaReduce
  cases hfound : (run env compiler arguments).found with
  | error cause =>
      rw [hfound] at hrun
      contradiction
  | ok result =>
      obtain ⟨report, summary⟩ := result
      have hfailed : summary.hasFailed = true := by
        rw [hfound] at hrun
        exact Option.some.inj hrun
      have hverdict := (run_verdict env compiler arguments).1 report summary hfound
      exact ⟨report, summary, rfl, hfailed, hverdict.1.1 hfailed⟩

end Check

end ScopedCheck

import ScopedCheck.Proofs.Check.Stages
import ScopedCheck.Proofs.Compiler.Restriction
import ScopedCheck.Proofs.Path.Canonical

/-!
# The files of a check

The requested files are what the arguments name, in order of first mention.  The
compiler's own choice of files leaves none of them out, so that the compiler is
given the list by which its diagnostics are selected afterwards.
-/

namespace ScopedCheck

namespace Check

/-- Whether some of the first arguments name one file below a root, and none of them another. -/
def NamedBefore (arguments : List Path) (root earlier later : Path) : Prop :=
  ∃ before after, arguments = before ++ after ∧
    earlier ∈ requestedFiles before root ∧ later ∉ requestedFiles before root

theorem pairwise_inputFiles (arguments : List Path) (root : Path) :
    (inputFiles arguments root).Pairwise (NamedBefore arguments root) := by
  refine (Path.pairwise_distinct _).imp ?_
  rintro earlier later ⟨before, after, heq, hearlier, hlater⟩
  obtain ⟨chosen, others, hfilter, rfl, rfl⟩ := List.map_eq_append_iff.1 heq
  obtain ⟨first, last, rfl, rfl, rfl⟩ := List.filter_eq_append_iff.1 hfilter
  refine ⟨first, last, rfl, List.mem_toFinset.2 hearlier, fun hmem => ?_⟩
  have hsame := List.any_eq_false.1 hlater later (List.mem_toFinset.1 hmem)
  simp at hsame

/-- Whether files are those that arguments name below a root, each once and in order. -/
structure NamesInOrder (arguments : List Path) (root : Path) (files : List Path) : Prop where
  absolute : ∀ file ∈ files, file.isAbsolute = true
  normal : ∀ file ∈ files, file.IsNormal
  apart : Path.Apart files
  mem_iff : ∀ file, file ∈ files ↔
    ∃ argument ∈ arguments, argument.isTypeScript = true ∧ (root.join argument).normalize = file
  inOrder : files.Pairwise (NamedBefore arguments root)

theorem namesInOrder_inputFiles {root : Path} (hroot : root.isAbsolute = true)
    (arguments : List Path) : NamesInOrder arguments root (inputFiles arguments root) where
  absolute := by
    intro file hmem
    obtain ⟨argument, _, _, rfl⟩ := mem_requestedFiles.1 (mem_inputFiles.1 hmem)
    exact Path.isAbsolute_absolutize hroot argument
  normal := fun _ hmem => isNormal_of_mem_requestedFiles (mem_inputFiles.1 hmem)
  apart := Path.apart_distinct _
  mem_iff := by
    intro file
    simp only [mem_inputFiles, mem_requestedFiles, Path.absolutize_eq_normalize_join]
  inOrder := pairwise_inputFiles arguments root

end Check

/-! ## What the compiler is given -/

namespace Project

theorem outcomeOf_ne_skipped (finished : CompilerExit) (base : Path) :
    outcomeOf finished base ≠ .ok .skipped := by
  unfold outcomeOf readBuildInfo
  split
  · exact nofun
  · split
    · exact nofun
    · split
      · exact nofun
      · split <;> exact nofun

/-- A project has nothing to do exactly when none of its files is one that the compiler checks. -/
theorem check_eq_skipped_iff (env : Environment) (compiler : CompilerBehavior)
    (project : Project) (files : List Path) (alwaysInclude : List String) :
    (project.check env compiler files alwaysInclude).2 = .ok .skipped ↔
      files.filter Path.isTypeScript = [] := by
  cases hchosen : files.filter Path.isTypeScript with
  | nil => simp [check, hchosen]
  | cons file rest =>
      simp only [check, hchosen, List.isEmpty_cons, Bool.false_eq_true, if_false, reduceCtorEq,
        iff_false]
      cases project.prepare env (file :: rest) alwaysInclude with
      | error cause => exact nofun
      | ok invocation => exact outcomeOf_ne_skipped _ _

/-- Whether the text of a configuration is that of an object whose `files` are the given ones. -/
def ConfigLists (config : String) (files : List Path) : Prop :=
  ∃ members, config = (Json.Value.object members).pretty ∧
    Json.member? "files" members = some (.array (files.map fun file => .string file.text))

/-- The compiler is started on the files that it checks, in their order. -/
theorem configLists_of_check {env : Environment} {compiler : CompilerBehavior}
    {project : Project} {files : List Path} {alwaysInclude : List String}
    {invocation : Invocation}
    (h : (project.check env compiler files alwaysInclude).1 = some invocation) :
    ConfigLists invocation.config (files.filter Path.isTypeScript) := by
  obtain ⟨base, _, hconfig⟩ := config_of_check h
  exact ⟨_, hconfig, Tsconfig.files_restricted base _ alwaysInclude project.root⟩

end Project

namespace Check

/--
The requested files are what the arguments name, once each and in order of first mention, and
they are the files that the compiler is given.

All of them are of the kind that the compiler checks.  So a project that is asked for them
leaves none out, has something to do unless there are none, and starts the compiler with
them as the `files` of its configuration.
-/
theorem inputFiles_reach_compiler {root : Path} (hroot : root.isAbsolute = true)
    (arguments : List Path) :
    NamesInOrder arguments root (inputFiles arguments root) ∧
      (∀ file ∈ inputFiles arguments root, file.isTypeScript = true) ∧
      (inputFiles arguments root).filter Path.isTypeScript = inputFiles arguments root ∧
      ∀ (env : Environment) (compiler : CompilerBehavior) (project : Project)
        (alwaysInclude : List String),
        ((project.check env compiler (inputFiles arguments root) alwaysInclude).2 =
            .ok .skipped ↔ inputFiles arguments root = []) ∧
          ∀ invocation,
            (project.check env compiler (inputFiles arguments root) alwaysInclude).1 =
                some invocation →
              Project.ConfigLists invocation.config (inputFiles arguments root) := by
  have hkept := filter_isTypeScript_inputFiles arguments root
  refine ⟨namesInOrder_inputFiles hroot arguments, List.filter_eq_self.1 hkept, hkept, ?_⟩
  intro env compiler project alwaysInclude
  refine ⟨?_, fun invocation h => ?_⟩
  · rw [Project.check_eq_skipped_iff, hkept]
  · have hlists := Project.configLists_of_check h
    rwa [hkept] at hlists

/-- Two files under several spellings, a hidden file and a directory above one of them. -/
theorem inputFiles_reach_compiler_by_detours :
    let tree := (FileTree.empty.addFile ⟨"/p/tsc"⟩ [] true).addFile ⟨"/p/tsconfig.json"⟩
      (Utf8.encode ['{', '}']) false
    let env : Environment := ⟨tree, ⟨"/p"⟩, [], ⟨"/"⟩, ⟨"Zk3q9a", "0xPw7B"⟩⟩
    let compiler : CompilerBehavior := fun _ => ⟨true, none⟩
    let project : Project := ⟨⟨"/p/tsc"⟩, ⟨"/p"⟩, none⟩
    let root : Path := ⟨"/p/."⟩
    let arguments : List Path := [⟨"b.tsx/."⟩, ⟨".ts"⟩, ⟨"x/../a.ts"⟩, ⟨"/p/b.tsx"⟩,
      ⟨"a.ts/.."⟩, ⟨"./a.ts//"⟩]
    let files : List Path := [⟨"/p/b.tsx"⟩, ⟨"/p/a.ts"⟩]
    root.isAbsolute = true ∧ inputFiles arguments root = files ∧
      NamesInOrder arguments root files ∧
      ∃ invocation, (project.check env compiler files []).1 = some invocation ∧
        Project.ConfigLists invocation.config files := by
  intro tree env compiler project root arguments files
  have hroot : root.isAbsolute = true := by decide +kernel
  have hfiles : inputFiles arguments root = files := by decide +kernel
  obtain ⟨hnames, _, _, hcheck⟩ := inputFiles_reach_compiler hroot arguments
  rw [hfiles] at hnames hcheck
  have hstarts : (project.check env compiler files []).1.isSome = true := by
    decide +kernel +zetaReduce
  obtain ⟨invocation, hstarted⟩ := Option.isSome_iff_exists.1 hstarts
  exact ⟨hroot, hfiles, hnames, invocation, hstarted,
    (hcheck env compiler project []).2 invocation hstarted⟩

end Check

end ScopedCheck

import ScopedCheck.Compiler.Run
import ScopedCheck.Json.Equality
import ScopedCheck.Proofs.Compiler.Tsconfig
import ScopedCheck.Proofs.Json.Keyed
import ScopedCheck.Proofs.Json.Printed
import ScopedCheck.Proofs.Outcome
import ScopedCheck.Proofs.Text.Utf8

/-!
# The configuration of a check

A check runs with the project's settings: what it sets is the files, the patterns
and two compiler options, and everything else is passed on.  The text that the
compiler is given is loaded as the very object that was made, whatever the
strings in it look like.
-/

namespace ScopedCheck

namespace Json

theorem parseTolerant?_pretty {value : Value} (h : value.Fits maxDepth) :
    parseTolerant? value.pretty = some value := by
  obtain ⟨tokens, hspelled, hdenotes⟩ := spelled_pretty h 0
  refine parseTolerant?_of_decorated hdenotes ⟨tokens, .refl tokens, ?_⟩
  rw [Value.pretty, String.toList_ofList]
  exact hspelled.mono (fun _ => .of_isBlank) fun rest hrest => hrest ▸ .ended .nil

theorem Value.fits_bool (value : Bool) (depth : Nat) : (Value.bool value).Fits depth := by
  cases depth <;> trivial

theorem Value.fits_strings {α : Type} (write : α → String) (found : List α) (depth : Nat) :
    (Value.array (found.map fun a => .string (write a))).Fits (depth + 1) := by
  intro item hmem
  obtain ⟨a, _, rfl⟩ := List.mem_map.1 hmem
  cases depth <;> trivial

theorem fits_setMember {members : List (String × Value)} {depth : Nat}
    (h : (Value.object members).Fits (depth + 1)) (name : String) {value : Value}
    (hvalue : value.Fits depth) : (Value.object (setMember name value members)).Fits (depth + 1) := by
  intro member hmem
  rcases mem_setMember hmem with rfl | hkept
  · exact hvalue
  · exact h member hkept

theorem Value.isKeyed_bool (value : Bool) : (Value.bool value).IsKeyed := by
  rw [IsKeyed, keyed] <;> simp

theorem Value.isKeyed_strings {α : Type} (write : α → String) (found : List α) :
    (Value.array (found.map fun a => .string (write a))).IsKeyed := by
  refine isKeyed_array_iff.2 fun item hmem => ?_
  obtain ⟨a, _, rfl⟩ := List.mem_map.1 hmem
  rfl

theorem mem_of_member? {name : String} {members : List (String × Value)} {value : Value}
    (h : member? name members = some value) : ∃ member ∈ members, member.2 = value := by
  obtain ⟨member, hfind, rfl⟩ := Option.map_eq_some_iff.1 h
  exact ⟨member, List.mem_of_find?_eq_some hfind, rfl⟩

end Json

namespace Tsconfig

/-! ## Objects by names are loaded as they are -/

theorem ofText_pretty {members : Members} (hkeyed : (Json.Value.object members).IsKeyed)
    (hfits : (Json.Value.object members).Fits Json.maxDepth) :
    ofText (Json.Value.object members).pretty = .ok members :=
  ofText_eq_ok_iff.2 ⟨_, Json.parseTolerant?_pretty hfits, hkeyed⟩

theorem load_pretty {members : Members} (hkeyed : (Json.Value.object members).IsKeyed)
    (hfits : (Json.Value.object members).Fits Json.maxDepth) {env : Environment} {path : Path}
    (hread : env.readBytes path =
      .ok (Utf8.encode (Json.Value.object members).pretty.toList)) :
    load env path = .ok members := by
  refine load_of_ofText hread (Utf8.decode?_encode _) ?_
  rw [String.ofList_toList]
  exact ofText_pretty hkeyed hfits

/-! ## Compiler options -/

theorem isKeyed_compilerOptions {base : Members} (h : (Json.Value.object base).IsKeyed) :
    (Json.Value.object (compilerOptions base)).IsKeyed := by
  unfold compilerOptions
  split
  · rename_i options hoptions
    obtain ⟨member, hmem, hvalue⟩ := Json.mem_of_member? hoptions
    exact hvalue ▸ (Json.isKeyed_object_iff.1 h).2 member hmem
  · rfl

theorem fits_compilerOptions {base : Members} {depth : Nat}
    (h : (Json.Value.object base).Fits (depth + 2)) :
    (Json.Value.object (compilerOptions base)).Fits (depth + 1) := by
  unfold compilerOptions
  split
  · rename_i options hoptions
    obtain ⟨member, hmem, hvalue⟩ := Json.mem_of_member? hoptions
    exact hvalue ▸ h member hmem
  · exact List.forall_mem_nil _

theorem isKeyed_forcedOptions {options : Members} (h : (Json.Value.object options).IsKeyed) :
    (Json.Value.object (forcedOptions options)).IsKeyed :=
  Json.isKeyed_setMember (Json.isKeyed_setMember h _ (Json.Value.isKeyed_bool true)) _
    (Json.Value.isKeyed_bool true)

theorem fits_forcedOptions {options : Members} {depth : Nat}
    (h : (Json.Value.object options).Fits (depth + 1)) :
    (Json.Value.object (forcedOptions options)).Fits (depth + 1) :=
  Json.fits_setMember (Json.fits_setMember h _ (Json.Value.fits_bool true depth)) _
    (Json.Value.fits_bool true depth)

theorem member?_forcedOptions (options : Members) {name : String} (hskip : name ≠ "skipLibCheck")
    (hcomposite : name ≠ "composite") :
    Json.member? name (forcedOptions options) = Json.member? name options := by
  rw [forcedOptions, Json.member?_setMember_other hcomposite.symm,
    Json.member?_setMember_other hskip.symm]

theorem skipLibCheck_forcedOptions (options : Members) :
    Json.member? "skipLibCheck" (forcedOptions options) = some (.bool true) := by
  rw [forcedOptions, Json.member?_setMember_other (by decide), Json.member?_setMember_same]

theorem composite_forcedOptions (options : Members) :
    Json.member? "composite" (forcedOptions options) = some (.bool true) :=
  Json.member?_setMember_same _ _ _

/-- Options that are forced already stay as they are. -/
theorem forcedOptions_forcedOptions {options : Members}
    (h : (Json.Value.object options).IsKeyed) :
    forcedOptions (forcedOptions options) = forcedOptions options := by
  obtain ⟨hsorted, _⟩ := Json.isKeyed_object_iff.1 (isKeyed_forcedOptions h)
  rw [forcedOptions.eq_def (forcedOptions options),
    Json.setMember_eq_self hsorted (skipLibCheck_forcedOptions options),
    Json.setMember_eq_self hsorted (composite_forcedOptions options)]

/-! ## The restricted configuration -/

section Restricted

variable (base : Members) (files : List Path) (alwaysInclude : List String) (root : Path)

theorem member?_restricted {name : String} (hoptions : name ≠ "compilerOptions")
    (hfiles : name ≠ "files") (hinclude : name ≠ "include") :
    Json.member? name (restricted base files alwaysInclude root) = Json.member? name base := by
  rw [restricted, Json.member?_setMember_other hinclude.symm,
    Json.member?_setMember_other hfiles.symm, Json.member?_setMember_other hoptions.symm]

theorem options_restricted :
    Json.member? "compilerOptions" (restricted base files alwaysInclude root) =
      some (.object (forcedOptions (compilerOptions base))) := by
  rw [restricted, Json.member?_setMember_other (by decide),
    Json.member?_setMember_other (by decide), Json.member?_setMember_same]

theorem files_restricted :
    Json.member? "files" (restricted base files alwaysInclude root) =
      some (.array (files.map fun file => .string file.text)) := by
  rw [restricted, Json.member?_setMember_other (by decide), Json.member?_setMember_same]

theorem include_restricted :
    Json.member? "include" (restricted base files alwaysInclude root) =
      some (.array (alwaysInclude.map fun pattern =>
        .string (Path.absolutize ⟨pattern⟩ root).text)) :=
  Json.member?_setMember_same _ _ _

theorem compilerOptions_restricted :
    compilerOptions (restricted base files alwaysInclude root) =
      forcedOptions (compilerOptions base) := by
  rw [compilerOptions.eq_def (restricted base files alwaysInclude root), options_restricted]

variable {base}

theorem isKeyed_restricted (h : (Json.Value.object base).IsKeyed) :
    (Json.Value.object (restricted base files alwaysInclude root)).IsKeyed := by
  have hoptions := isKeyed_forcedOptions (isKeyed_compilerOptions h)
  exact Json.isKeyed_setMember (Json.isKeyed_setMember (Json.isKeyed_setMember h _ hoptions) _
    (Json.Value.isKeyed_strings Path.text files)) _
    (Json.Value.isKeyed_strings (fun pattern => (Path.absolutize ⟨pattern⟩ root).text) alwaysInclude)

theorem fits_restricted {depth : Nat} (h : (Json.Value.object base).Fits (depth + 2)) :
    (Json.Value.object (restricted base files alwaysInclude root)).Fits (depth + 2) := by
  have hoptions := fits_forcedOptions (fits_compilerOptions h)
  exact Json.fits_setMember (Json.fits_setMember (Json.fits_setMember h _ hoptions) _
    (Json.Value.fits_strings Path.text files depth)) _
    (Json.Value.fits_strings (fun pattern => (Path.absolutize ⟨pattern⟩ root).text)
      alwaysInclude depth)

/-- A configuration that is restricted already stays as it is. -/
theorem restricted_restricted (h : (Json.Value.object base).IsKeyed) :
    restricted (restricted base files alwaysInclude root) files alwaysInclude root =
      restricted base files alwaysInclude root := by
  obtain ⟨hsorted, _⟩ :=
    Json.isKeyed_object_iff.1 (isKeyed_restricted files alwaysInclude root h)
  rw [restricted.eq_def (restricted base files alwaysInclude root), compilerOptions_restricted,
    forcedOptions_forcedOptions (isKeyed_compilerOptions h)]
  dsimp only
  rw [Json.setMember_eq_self hsorted (options_restricted base files alwaysInclude root),
    Json.setMember_eq_self hsorted (files_restricted base files alwaysInclude root),
    Json.setMember_eq_self hsorted (include_restricted base files alwaysInclude root)]

end Restricted

end Tsconfig

/-! ## What the compiler is given -/

namespace Project

theorem config_of_prepare {env : Environment} {project : Project} {files : List Path}
    {alwaysInclude : List String} {invocation : Invocation}
    (h : project.prepare env files alwaysInclude = .ok invocation) :
    ∃ base, Tsconfig.load env project.configPath = .ok base ∧
      invocation.config =
        (Json.Value.object (Tsconfig.restricted base files alwaysInclude project.root)).pretty := by
  unfold prepare at h
  cases hexists : env.pathExists project.compiler with
  | false =>
      simp only [hexists] at h
      cases h
  | true =>
      simp only [hexists, Bool.not_true, Bool.false_eq_true, if_false] at h
      obtain ⟨base, hbase, hstarted⟩ := exists_ok_of_bind h
      refine ⟨base, eq_ok_of_mapError hbase, ?_⟩
      split at hstarted
      · cases hstarted
      · split at hstarted
        · cases hstarted
        · obtain ⟨program, _, hinvocation⟩ := exists_ok_of_bind hstarted
          rw [← Except.ok.inj hinvocation]

theorem config_of_check {env : Environment} {compiler : CompilerBehavior} {project : Project}
    {files : List Path} {alwaysInclude : List String} {invocation : Invocation}
    (h : (project.check env compiler files alwaysInclude).1 = some invocation) :
    ∃ base, Tsconfig.load env project.configPath = .ok base ∧
      invocation.config = (Json.Value.object (Tsconfig.restricted base
        (files.filter Path.isTypeScript) alwaysInclude project.root)).pretty := by
  unfold check at h
  dsimp only at h
  split at h
  · cases h
  · split at h
    · cases h
    · rename_i hprepared
      obtain rfl := Option.some.inj h
      exact config_of_prepare hprepared

end Project

namespace Tsconfig

/-- Whether a configuration differs from another in what a check sets, and in nothing else. -/
structure Restricts (base : Members) (files : List Path) (alwaysInclude : List String)
    (root : Path) (made : Members) : Prop where
  kept : ∀ name, name ≠ "compilerOptions" → name ≠ "files" → name ≠ "include" →
    Json.member? name made = Json.member? name base
  options : Json.member? "compilerOptions" made = some (.object (compilerOptions made))
  optionsKept : ∀ name, name ≠ "skipLibCheck" → name ≠ "composite" →
    Json.member? name (compilerOptions made) = Json.member? name (compilerOptions base)
  skipLibCheck : Json.member? "skipLibCheck" (compilerOptions made) = some (.bool true)
  composite : Json.member? "composite" (compilerOptions made) = some (.bool true)
  files : Json.member? "files" made = some (.array (files.map fun file => .string file.text))
  included : Json.member? "include" made = some (.array (alwaysInclude.map fun pattern =>
    .string (Path.absolutize ⟨pattern⟩ root).text))

theorem restricts_restricted (base : Members) (files : List Path) (alwaysInclude : List String)
    (root : Path) :
    Restricts base files alwaysInclude root (restricted base files alwaysInclude root) where
  kept := fun _ => member?_restricted base files alwaysInclude root
  options := by rw [options_restricted, compilerOptions_restricted]
  optionsKept := by
    rw [compilerOptions_restricted]
    exact fun _ => member?_forcedOptions _
  skipLibCheck := by rw [compilerOptions_restricted, skipLibCheck_forcedOptions]
  composite := by rw [compilerOptions_restricted, composite_forcedOptions]
  files := files_restricted base files alwaysInclude root
  included := include_restricted base files alwaysInclude root

/--
The configuration of a check has the project's settings, and the compiler can read it.

Everything but what the check sets is as it is in the base.  Restricting again
changes nothing.  The text of the configuration, which is what the compiler is
started with, is loaded as that configuration.
-/
theorem restricted_carries_settings {base : Members}
    (hkeyed : (Json.Value.object base).IsKeyed)
    (hfits : (Json.Value.object base).Fits Json.maxDepth) (files : List Path)
    (alwaysInclude : List String) (root : Path) :
    let made := restricted base files alwaysInclude root
    Restricts base files alwaysInclude root made ∧
      restricted made files alwaysInclude root = made ∧
      ofText (Json.Value.object made).pretty = .ok made ∧
      (∀ (env : Environment) (path : Path),
        env.readBytes path = .ok (Utf8.encode (Json.Value.object made).pretty.toList) →
          load env path = .ok made) ∧
      ∀ (env : Environment) (compiler : CompilerBehavior) (project : Project)
        (requested : List Path) (invocation : Invocation),
        load env project.configPath = .ok base → project.root = root →
          requested.filter Path.isTypeScript = files →
            (project.check env compiler requested alwaysInclude).1 = some invocation →
              ofText invocation.config = .ok made := by
  intro made
  have hmade := isKeyed_restricted files alwaysInclude root hkeyed
  have hdepth : (Json.Value.object made).Fits Json.maxDepth := by
    obtain ⟨depth, hlimit⟩ : ∃ depth, Json.maxDepth = depth + 2 := ⟨125, rfl⟩
    rw [hlimit] at hfits ⊢
    exact fits_restricted files alwaysInclude root hfits
  have htext := ofText_pretty hmade hdepth
  refine ⟨restricts_restricted base files alwaysInclude root,
    restricted_restricted files alwaysInclude root hkeyed, htext,
    fun env path hread => load_pretty hmade hdepth hread, ?_⟩
  rintro env compiler project requested invocation hload rfl rfl hstarted
  obtain ⟨loaded, hloaded, hconfig⟩ := Project.config_of_check hstarted
  rw [hload] at hloaded
  obtain rfl := Except.ok.inj hloaded
  rw [hconfig]
  exact htext

/-- Comment markers, commas and brackets in names and strings come back as they were. -/
theorem restricted_carries_settings_markers :
    let paths : Json.Value := .object [("@/*", .array [.string "./src/**/*", .string "//,]"])]
    let base : Members := [("//", .string "/*"),
      ("compilerOptions", .object [("paths", paths), ("skipLibCheck", .bool false)]),
      ("extends", .string "https://host/\",\x7d"), ("files", .null)]
    let made : Members := [("//", .string "/*"),
      ("compilerOptions", .object
        [("composite", .bool true), ("paths", paths), ("skipLibCheck", .bool true)]),
      ("extends", .string "https://host/\",\x7d"), ("files", .array [.string "/p/a.ts"]),
      ("include", .array [.string "/p/types/*.d.ts"])]
    let tree := FileTree.empty.addFile ⟨"/t"⟩
      (Utf8.encode (Json.Value.object made).pretty.toList) false
    restricted base [⟨"/p/a.ts"⟩] ["./types/*.d.ts"] ⟨"/p"⟩ = made ∧
      restricted made [⟨"/p/a.ts"⟩] ["./types/*.d.ts"] ⟨"/p"⟩ = made ∧
        ofText (Json.Value.object made).pretty = .ok made ∧
          load ⟨tree, ⟨"/"⟩, [], ⟨"/"⟩, default⟩ ⟨"/t"⟩ = .ok made := by
  intro paths base made tree
  have hkeyed : (Json.Value.object base).IsKeyed := by
    unfold Json.Value.IsKeyed
    decide +kernel +zetaReduce
  have hfits : (Json.Value.object base).Fits Json.maxDepth := by
    simp [base, paths, Json.Value.Fits, Json.maxDepth]
  have hmade : restricted base [⟨"/p/a.ts"⟩] ["./types/*.d.ts"] ⟨"/p"⟩ = made := by
    decide +kernel +zetaReduce
  obtain ⟨_, hagain, htext, hload, _⟩ :=
    restricted_carries_settings hkeyed hfits [⟨"/p/a.ts"⟩] ["./types/*.d.ts"] ⟨"/p"⟩
  have hread : ∀ content, Environment.readBytes
      ⟨FileTree.empty.addFile ⟨"/t"⟩ content false, ⟨"/"⟩, [], ⟨"/"⟩, default⟩ ⟨"/t"⟩ = .ok content :=
    fun _ => rfl
  rw [hmade] at hagain htext hload
  exact ⟨hmade, hagain, htext, hload _ _ (hread _)⟩

end Tsconfig

end ScopedCheck

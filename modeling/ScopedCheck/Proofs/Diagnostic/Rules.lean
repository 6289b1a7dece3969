import ScopedCheck.Diagnostic.Ignore
import ScopedCheck.Proofs.Outcome
import ScopedCheck.Proofs.Path.Relative

/-!
# What rules ignore

A rule without glob characters names one file, any other rule the files that its
glob matches.  A list ignores a file exactly when one of its rules does, so that
a longer list ignores more.
-/

namespace ScopedCheck

namespace IgnoreList

/-! ## Compiling rules -/

theorem addRule_of_plain {rule : String} (h : isGlob rule = false) (compiled : IgnoreList) :
    addRule rule compiled =
      .ok { compiled with exact := compiled.exact ++ [Path.absolutize ⟨rule⟩ compiled.root] } := by
  simp [addRule, h]

theorem addRule_of_glob {rule : String} {tokens : List Glob.Token} (h : isGlob rule = true)
    (htokens : Glob.tokens rule.toList = .ok tokens) (compiled : IgnoreList) :
    addRule rule compiled = .ok { compiled with globs := compiled.globs ++ [tokens] } := by
  simp [addRule, h, htokens]

theorem addRule_cases {rule : String} {compiled next : IgnoreList}
    (h : addRule rule compiled = .ok next) :
    (isGlob rule = true ∧ ∃ tokens, Glob.tokens rule.toList = .ok tokens ∧
        next = { compiled with globs := compiled.globs ++ [tokens] }) ∨
      (isGlob rule = false ∧
        next = { compiled with
          exact := compiled.exact ++ [Path.absolutize ⟨rule⟩ compiled.root] }) := by
  cases hglob : isGlob rule with
  | false =>
      rw [addRule_of_plain hglob] at h
      exact .inr ⟨rfl, (Except.ok.inj h).symm⟩
  | true =>
      cases htokens : Glob.tokens rule.toList with
      | error cause => simp [addRule, hglob, htokens] at h
      | ok tokens =>
          rw [addRule_of_glob hglob htokens] at h
          exact .inl ⟨rfl, tokens, rfl, (Except.ok.inj h).symm⟩

theorem foldlM_addRule_nil {compiled list : IgnoreList}
    (h : [].foldlM (fun compiled rule => addRule rule compiled) compiled = .ok list) :
    compiled = list := by
  simpa [pure, Except.pure] using h

theorem foldlM_addRule_cons {rule : String} {rest : List String} {compiled list : IgnoreList}
    (h : (rule :: rest).foldlM (fun compiled rule => addRule rule compiled) compiled = .ok list) :
    ∃ next, addRule rule compiled = .ok next ∧
      rest.foldlM (fun compiled rule => addRule rule compiled) next = .ok list := by
  rw [List.foldlM_cons] at h
  exact exists_ok_of_bind h

/-- What a run of rules makes of a list, seen through its members. -/
structure Adds (rules : List String) (compiled list : IgnoreList) : Prop where
  root : list.root = compiled.root
  mem_exact : ∀ file, file ∈ list.exact ↔ file ∈ compiled.exact ∨
    ∃ rule ∈ rules, isGlob rule = false ∧ Path.absolutize ⟨rule⟩ compiled.root = file
  mem_globs : ∀ tokens, tokens ∈ list.globs ↔ tokens ∈ compiled.globs ∨
    ∃ rule ∈ rules, isGlob rule = true ∧ Glob.tokens rule.toList = .ok tokens

theorem adds_foldlM_addRule {rules : List String} {compiled list : IgnoreList}
    (h : rules.foldlM (fun compiled rule => addRule rule compiled) compiled = .ok list) :
    Adds rules compiled list := by
  induction rules generalizing compiled with
  | nil =>
      obtain rfl := foldlM_addRule_nil h
      exact ⟨rfl, by simp, by simp⟩
  | cons rule rest ih =>
      obtain ⟨next, hrule, hrest⟩ := foldlM_addRule_cons h
      have hadds := ih hrest
      rcases addRule_cases hrule with ⟨hglob, tokens, htokens, rfl⟩ | ⟨hplain, rfl⟩
      · refine ⟨hadds.root, ?_, ?_⟩
        · intro file
          rw [hadds.mem_exact]
          simp [hglob]
        · intro found
          rw [hadds.mem_globs]
          simp [hglob, htokens, or_assoc, @eq_comm _ found]
      · refine ⟨hadds.root, ?_, ?_⟩
        · intro file
          rw [hadds.mem_exact]
          simp [hplain, or_assoc, @eq_comm _ file]
        · intro found
          rw [hadds.mem_globs]
          simp [hplain]

theorem adds_compile {rules : List String} {root : Path} {list : IgnoreList}
    (h : compile rules root = .ok list) : Adds rules ⟨root, [], []⟩ list :=
  adds_foldlM_addRule h

/-! ## Longer lists of rules -/

/-- Whether a list has all that another one has, in the same place. -/
structure Extends (longer shorter : IgnoreList) : Prop where
  root : longer.root = shorter.root
  exact : shorter.exact <+: longer.exact
  globs : shorter.globs <+: longer.globs

theorem Extends.refl (list : IgnoreList) : list.Extends list :=
  ⟨rfl, List.prefix_rfl, List.prefix_rfl⟩

theorem Extends.trans {longest longer shorter : IgnoreList} (h₁ : longest.Extends longer)
    (h₂ : longer.Extends shorter) : longest.Extends shorter :=
  ⟨h₁.root.trans h₂.root, h₂.exact.trans h₁.exact, h₂.globs.trans h₁.globs⟩

theorem extends_addRule {rule : String} {compiled longer : IgnoreList}
    (h : addRule rule compiled = .ok longer) : longer.Extends compiled := by
  rcases addRule_cases h with ⟨_, tokens, _, rfl⟩ | ⟨_, rfl⟩
  · exact ⟨rfl, List.prefix_rfl, List.prefix_append _ _⟩
  · exact ⟨rfl, List.prefix_append _ _, List.prefix_rfl⟩

theorem extends_foldlM_addRule {rules : List String} {compiled longer : IgnoreList}
    (h : rules.foldlM (fun compiled rule => addRule rule compiled) compiled = .ok longer) :
    longer.Extends compiled := by
  induction rules generalizing compiled with
  | nil =>
      obtain rfl := foldlM_addRule_nil h
      exact Extends.refl compiled
  | cons rule rest ih =>
      obtain ⟨next, hrule, hrest⟩ := foldlM_addRule_cons h
      exact (ih hrest).trans (extends_addRule hrule)

theorem extends_compile_append {rules more : List String} {root : Path}
    {shorter longer : IgnoreList} (hshorter : compile rules root = .ok shorter)
    (hlonger : compile (rules ++ more) root = .ok longer) : longer.Extends shorter := by
  unfold compile at hshorter hlonger
  rw [List.foldlM_append, hshorter] at hlonger
  exact extends_foldlM_addRule hlonger

/-- A file below the root is matched by its spelling from there, too. -/
theorem isIgnored_eq (list : IgnoreList) (path : Path) :
    list.isIgnored path = (list.exact.any (·.same path) ||
      (path.relativeTo? list.root).any list.matchesGlob || list.matchesGlob path) := by
  unfold isIgnored
  cases path.relativeTo? list.root <;> rfl

theorem Extends.matchesGlob {longer shorter : IgnoreList} (h : longer.Extends shorter)
    {path : Path} (hmatch : shorter.matchesGlob path = true) : longer.matchesGlob path = true := by
  obtain ⟨tokens, hmem, htokens⟩ := List.any_eq_true.1 hmatch
  exact List.any_eq_true.2 ⟨tokens, h.globs.subset hmem, htokens⟩

theorem Extends.isIgnored {longer shorter : IgnoreList} (h : longer.Extends shorter)
    {path : Path} (hignored : shorter.isIgnored path = true) : longer.isIgnored path = true := by
  simp only [isIgnored_eq, Bool.or_eq_true] at hignored ⊢
  rw [h.root]
  rcases hignored with (hexact | hrelative) | hglob
  · obtain ⟨file, hmem, hsame⟩ := List.any_eq_true.1 hexact
    exact .inl (.inl (List.any_eq_true.2 ⟨file, h.exact.subset hmem, hsame⟩))
  · obtain ⟨relative, hbelow, hmatch⟩ := (Option.any_eq_true _ _).1 hrelative
    exact .inl (.inr ((Option.any_eq_true _ _).2 ⟨relative, hbelow, h.matchesGlob hmatch⟩))
  · exact .inr (h.matchesGlob hglob)

/-! ## What a rule means -/

/-- Whether a rule is a glob and matches a text. -/
def RuleMatches (rule : String) (text : List Char) : Prop :=
  isGlob rule = true ∧ ∃ tokens, Glob.tokens rule.toList = .ok tokens ∧
    Glob.isMatch tokens (Utf8.encode text) = true

theorem matchesGlob_iff {rules : List String} {root : Path} {list : IgnoreList}
    (h : compile rules root = .ok list) (path : Path) :
    list.matchesGlob path = true ↔ ∃ rule ∈ rules, RuleMatches rule path.chars := by
  have hadds := adds_compile h
  constructor
  · intro hmatch
    obtain ⟨tokens, hmem, htokens⟩ := List.any_eq_true.1 hmatch
    obtain hnone | ⟨rule, hrule, hglob, hread⟩ := (hadds.mem_globs tokens).1 hmem
    · exact absurd hnone List.not_mem_nil
    · exact ⟨rule, hrule, hglob, tokens, hread, htokens⟩
  · rintro ⟨rule, hrule, hglob, tokens, hread, htokens⟩
    exact List.any_eq_true.2
      ⟨tokens, (hadds.mem_globs tokens).2 (.inr ⟨rule, hrule, hglob, hread⟩), htokens⟩

/-- A file in normal form is one of the named files when a plain rule names it. -/
theorem any_exact_iff {rules : List String} {root path : Path} {list : IgnoreList}
    (h : compile rules root = .ok list) (hnormal : path.IsNormal) :
    list.exact.any (·.same path) = true ↔
      ∃ rule ∈ rules, isGlob rule = false ∧ Path.absolutize ⟨rule⟩ root = path := by
  have hadds := adds_compile h
  constructor
  · intro hany
    obtain ⟨file, hmem, hsame⟩ := List.any_eq_true.1 hany
    obtain hnone | ⟨rule, hrule, hplain, rfl⟩ := (hadds.mem_exact file).1 hmem
    · exact absurd hnone List.not_mem_nil
    · exact ⟨rule, hrule, hplain, (Path.isNormal_absolutize _ _).eq_of_same hnormal hsame⟩
  · rintro ⟨rule, hrule, hplain, hnames⟩
    refine List.any_eq_true.2 ⟨path, ?_, Path.same_refl path⟩
    exact (hadds.mem_exact path).2 (.inr ⟨rule, hrule, hplain, hnames⟩)

/-- Below the root a file is also matched by its spelling from there. -/
theorem matchesRelative_iff {rules : List String} {root path : Path} {list : IgnoreList}
    (h : compile rules root = .ok list) (hroot : root.IsNormal)
    (hrootAbsolute : root.isAbsolute = true) (hpath : path.IsNormal)
    (hpathAbsolute : path.isAbsolute = true) :
    (path.relativeTo? list.root).any list.matchesGlob = true ↔
      ∃ rule ∈ rules, ∃ below, path.components = root.components ++ below.map .name ∧
        RuleMatches rule (Path.spellNames below) := by
  have hbelow_iff : ∀ relative : Path, path.relativeTo? root = some relative ↔
      ∃ below, path.components = root.components ++ below.map .name ∧
        relative.chars = Path.spellNames below :=
    fun _ => Path.relativeTo?_eq_some_iff hpath hpathAbsolute hroot hrootAbsolute
  rw [(adds_compile h).root]
  constructor
  · intro hany
    obtain ⟨relative, hrelative, hmatch⟩ := (Option.any_eq_true _ _).1 hany
    obtain ⟨below, hbelow, hchars⟩ := (hbelow_iff relative).1 hrelative
    obtain ⟨rule, hrule, hmatches⟩ := (matchesGlob_iff h relative).1 hmatch
    rw [hchars] at hmatches
    exact ⟨rule, hrule, below, hbelow, hmatches⟩
  · rintro ⟨rule, hrule, below, hbelow, hmatches⟩
    have hchars := Path.chars_ofChars (Path.spellNames below)
    rw [← hchars] at hmatches
    exact (Option.any_eq_true _ _).2 ⟨_, (hbelow_iff _).2 ⟨below, hbelow, hchars⟩,
      (matchesGlob_iff h _).2 ⟨rule, hrule, hmatches⟩⟩

/--
A file is ignored exactly when some rule ignores it.

A rule without glob characters ignores the file that it names below the root, any other rule the
files whose spelling its glob matches, as a whole or below the root.  In particular a rule without
glob characters that is the spelling of a file ignores it.
-/
theorem isIgnored_iff_exists_rule {rules : List String} {root path : Path} {list : IgnoreList}
    (hroot : root.IsNormal) (hrootAbsolute : root.isAbsolute = true) (hpath : path.IsNormal)
    (hpathAbsolute : path.isAbsolute = true) (h : compile rules root = .ok list) :
    (list.isIgnored path = true ↔ ∃ rule ∈ rules,
      (isGlob rule = false ∧ Path.absolutize ⟨rule⟩ root = path) ∨
        RuleMatches rule path.chars ∨
        ∃ below, path.components = root.components ++ below.map .name ∧
          RuleMatches rule (Path.spellNames below)) ∧
      (path.text ∈ rules → isGlob path.text = false → list.isIgnored path = true) := by
  have hiff : list.isIgnored path = true ↔ ∃ rule ∈ rules,
      (isGlob rule = false ∧ Path.absolutize ⟨rule⟩ root = path) ∨
        RuleMatches rule path.chars ∨
        ∃ below, path.components = root.components ++ below.map .name ∧
          RuleMatches rule (Path.spellNames below) := by
    rw [isIgnored_eq, Bool.or_eq_true, Bool.or_eq_true, any_exact_iff h hpath,
      matchesRelative_iff h hroot hrootAbsolute hpath hpathAbsolute, matchesGlob_iff h]
    constructor
    · rintro ((⟨rule, hrule, hnames⟩ | ⟨rule, hrule, hbelow⟩) | ⟨rule, hrule, hmatches⟩)
      · exact ⟨rule, hrule, .inl hnames⟩
      · exact ⟨rule, hrule, .inr (.inr hbelow)⟩
      · exact ⟨rule, hrule, .inr (.inl hmatches)⟩
    · rintro ⟨rule, hrule, hnames | hmatches | hbelow⟩
      · exact .inl (.inl ⟨rule, hrule, hnames⟩)
      · exact .inr ⟨rule, hrule, hmatches⟩
      · exact .inl (.inr ⟨rule, hrule, hbelow⟩)
  refine ⟨hiff, ?_⟩
  intro hrule hplain
  refine hiff.2 ⟨path.text, hrule, .inl ⟨hplain, ?_⟩⟩
  rw [Path.absolutize_of_isAbsolute root hpathAbsolute]
  exact hpath

/-- A file below the root is ignored by a glob that matches its spelling from there. -/
theorem isIgnored_of_glob_below_root :
    let root : Path := ⟨"/p"⟩
    let path : Path := ⟨"/p/gen/x.ts"⟩
    let tokens : List Glob.Token :=
      [.literal 'g', .literal 'e', .literal 'n', .literal '/', .star]
    let list : IgnoreList := ⟨root, [⟨"/p/a.ts"⟩], [tokens]⟩
    root.IsNormal ∧ root.isAbsolute = true ∧ path.IsNormal ∧ path.isAbsolute = true ∧
      compile ["./a.ts", "gen/*"] root = .ok list ∧
      path.components = root.components ++ [['g', 'e', 'n'], ['x', '.', 't', 's']].map .name ∧
      list.isIgnored path = true := by
  intro root path tokens list
  have hroot : root.normalize = root := by decide +kernel
  have hrootAbsolute : root.isAbsolute = true := by decide +kernel
  have hpath : path.normalize = path := by decide +kernel
  have hpathAbsolute : path.isAbsolute = true := by decide +kernel
  have hplain : isGlob "./a.ts" = false := by decide +kernel
  have hglob : isGlob "gen/*" = true := by decide +kernel
  have hspelling : "gen/*".toList = ['g', 'e', 'n', '/', '*'] := by decide +kernel
  have htokens : Glob.tokens "gen/*".toList = .ok tokens := by
    rw [hspelling]
    rfl
  have hnamed : Path.absolutize ⟨"./a.ts"⟩ root = ⟨"/p/a.ts"⟩ := by decide +kernel
  have hcompile : compile ["./a.ts", "gen/*"] root = .ok list := by
    have hfirst := addRule_of_plain hplain ⟨root, [], []⟩
    have hsecond := addRule_of_glob hglob htokens ⟨root, [⟨"/p/a.ts"⟩], []⟩
    simp only [List.nil_append] at hfirst hsecond
    rw [compile, List.foldlM_cons, hfirst, hnamed]
    exact congrArg (· >>= pure) hsecond
  have hbelow : path.components =
      root.components ++ [['g', 'e', 'n'], ['x', '.', 't', 's']].map .name := by decide +kernel
  have hmatches : RuleMatches "gen/*" (Path.spellNames [['g', 'e', 'n'], ['x', '.', 't', 's']]) :=
    ⟨hglob, tokens, htokens, by decide +kernel⟩
  have hiff := (isIgnored_iff_exists_rule hroot hrootAbsolute hpath hpathAbsolute hcompile).1
  exact ⟨hroot, hrootAbsolute, hpath, hpathAbsolute, hcompile, hbelow,
    hiff.2 ⟨"gen/*", by simp, .inr (.inr ⟨_, hbelow, hmatches⟩)⟩⟩

/-- A rule with brackets does not ignore the file that it spells; as a glob it means another one. -/
theorem not_isIgnored_of_bracketed_spelling :
    let rule := "/p/[id].ts"
    let root : Path := ⟨"/p"⟩
    let path : Path := ⟨"/p/[id].ts"⟩
    let tokens : List Glob.Token :=
      [.literal '/', .literal 'p', .literal '/', .byteClass false [('i', 'i'), ('d', 'd')],
        .literal '.', .literal 't', .literal 's']
    let list : IgnoreList := ⟨root, [], [tokens]⟩
    root.IsNormal ∧ root.isAbsolute = true ∧ path.IsNormal ∧ path.isAbsolute = true ∧
      compile [rule] root = .ok list ∧ Path.absolutize ⟨rule⟩ root = path ∧
      list.isIgnored path = false ∧ list.isIgnored ⟨"/p/d.ts"⟩ = true := by
  intro rule root path tokens list
  have hroot : root.normalize = root := by decide +kernel
  have hpath : path.normalize = path := by decide +kernel
  have hglob : isGlob rule = true := by decide +kernel
  have hspelling : rule.toList = ['/', 'p', '/', '[', 'i', 'd', ']', '.', 't', 's'] := by
    decide +kernel
  have htokens : Glob.tokens rule.toList = .ok tokens := by
    rw [hspelling]
    rfl
  have hcompile : compile [rule] root = .ok list :=
    congrArg (· >>= pure) (addRule_of_glob hglob htokens ⟨root, [], []⟩)
  exact ⟨hroot, by decide +kernel, hpath, by decide +kernel, hcompile, by decide +kernel,
    by decide +kernel, by decide +kernel⟩

end IgnoreList

end ScopedCheck

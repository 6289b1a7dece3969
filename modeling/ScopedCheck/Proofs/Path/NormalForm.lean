import ScopedCheck.Proofs.Path.Spelling

/-!
# Normal paths

A normal list of components is a root or some `..`, followed by names.  Pushing
keeps the form, and pushing what has it changes nothing, so a normal path is
spelled in one way only.
-/

namespace ScopedCheck

namespace Path

/-! ## The form that pushing keeps -/

/-- What may stand before the names: the root, or `..` a number of times. -/
def IsOutset (outset : List Component) : Prop :=
  outset = [.root] ∨ ∃ count, outset = List.replicate count .up

/-- The root or some `..`, then names. -/
def IsNormalForm (components : List Component) : Prop :=
  ∃ (outset : List Component) (names : List (List Char)),
    IsOutset outset ∧ components = outset ++ names.map .name

theorem isNormalForm_nil : IsNormalForm [] :=
  ⟨[], [], .inr ⟨0, rfl⟩, rfl⟩

theorem pushNormal_name (stack : List Component) (text : List Char) :
    pushNormal stack (.name text) = .name text :: stack := by
  unfold pushNormal
  split <;> simp_all

theorem pushNormal_up_of_outset {outset : List Component} (h : IsOutset outset) :
    IsOutset (pushNormal outset.reverse .up).reverse := by
  rcases h with rfl | ⟨count, rfl⟩
  · exact .inl rfl
  · refine .inr ⟨count + 1, ?_⟩
    cases count with
    | zero => rfl
    | succ count => simp [List.replicate_succ, pushNormal, ← List.replicate_succ']

theorem isNormalForm_pushNormal {stack : List Component} (h : IsNormalForm stack.reverse)
    (component : Component) : IsNormalForm (pushNormal stack component).reverse := by
  obtain ⟨outset, names, houtset, heq⟩ := h
  have hstack : stack = (names.map Component.name).reverse ++ outset.reverse := by
    rw [← List.reverse_append, ← heq, List.reverse_reverse]
  cases component with
  | here => exact ⟨outset, names, houtset, by simpa [pushNormal] using heq⟩
  | root => exact ⟨[.root], [], .inl rfl, by simp [pushNormal]⟩
  | name text =>
      refine ⟨outset, names ++ [text], houtset, ?_⟩
      simp [pushNormal_name, heq]
  | up =>
      rcases List.eq_nil_or_concat names with rfl | ⟨earlier, last, rfl⟩
      · have hup := pushNormal_up_of_outset houtset
        rw [hstack]
        exact ⟨_, [], hup, by simp⟩
      · refine ⟨outset, earlier, houtset, ?_⟩
        simp [hstack, pushNormal]

theorem isNormalForm_foldl_pushNormal (components : List Component) {stack : List Component}
    (h : IsNormalForm stack.reverse) :
    IsNormalForm (components.foldl pushNormal stack).reverse := by
  induction components generalizing stack with
  | nil => exact h
  | cons component rest ih => exact ih (isNormalForm_pushNormal h component)

theorem isNormalForm_normalComponents (components : List Component) :
    IsNormalForm (normalComponents components) :=
  isNormalForm_foldl_pushNormal components isNormalForm_nil

/-! ## Pushing what is normal -/

theorem foldl_pushNormal_names (names : List (List Char)) (stack : List Component) :
    (names.map Component.name).foldl pushNormal stack =
      (names.map Component.name).reverse ++ stack := by
  induction names generalizing stack with
  | nil => rfl
  | cons text rest ih => simp [pushNormal_name, ih]

theorem foldl_pushNormal_ups (count : Nat) :
    (List.replicate count Component.up).foldl pushNormal [] = List.replicate count .up := by
  induction count with
  | zero => rfl
  | succ count ih =>
      rw [List.replicate_succ', List.foldl_append, ih, ← List.replicate_succ']
      cases count with
      | zero => rfl
      | succ count => rfl

theorem foldl_pushNormal_outset {outset : List Component} (h : IsOutset outset) :
    outset.foldl pushNormal [] = outset.reverse := by
  rcases h with rfl | ⟨count, rfl⟩
  · rfl
  · rw [foldl_pushNormal_ups, List.reverse_replicate]

theorem normalComponents_of_isNormalForm {components : List Component}
    (h : IsNormalForm components) : normalComponents components = components := by
  obtain ⟨outset, names, houtset, rfl⟩ := h
  rw [normalComponents, List.foldl_append, foldl_pushNormal_outset houtset,
    foldl_pushNormal_names, List.reverse_append, List.reverse_reverse, List.reverse_reverse]

/-! ## Where normal components come from -/

theorem mem_of_mem_pushNormal {stack : List Component} {component found : Component}
    (h : found ∈ pushNormal stack component) : found ∈ stack ∨ found = component := by
  unfold pushNormal at h
  split at h <;> simp_all [or_comm]

theorem mem_of_mem_foldl_pushNormal {components stack : List Component} {found : Component}
    (h : found ∈ components.foldl pushNormal stack) : found ∈ stack ∨ found ∈ components := by
  induction components generalizing stack with
  | nil => exact .inl h
  | cons component rest ih =>
      rcases ih h with hmem | hmem
      · rcases mem_of_mem_pushNormal hmem with hstack | rfl
        · exact .inl hstack
        · exact .inr List.mem_cons_self
      · exact .inr (List.mem_cons_of_mem component hmem)

theorem mem_of_mem_normalComponents {components : List Component} {found : Component}
    (h : found ∈ normalComponents components) : found ∈ components := by
  rcases mem_of_mem_foldl_pushNormal (List.mem_reverse.1 h) with hmem | hmem
  · exact absurd hmem (List.not_mem_nil)
  · exact hmem

theorem isSpelled_of_mem_components {path : Path} {component : Component}
    (h : component ∈ path.components) (hroot : component ≠ .root) (hhere : component ≠ .here) :
    component.IsSpelled := by
  rw [components_eq, List.mem_append] at h
  rcases h with hhead | hpiece
  · cases hh : path.cut.head <;> simp_all [Head.components]
  · exact isSpelled_of_mem_pieceComponents hpiece

/-! ## The normal form of a path -/

theorem components_normalize (path : Path) :
    path.normalize.components = normalComponents path.components := by
  obtain ⟨outset, names, houtset, heq⟩ := isNormalForm_normalComponents path.components
  have hspelled : ∀ component ∈ normalComponents path.components,
      component ≠ .root → component ≠ .here → component.IsSpelled := by
    intro component hmem hroot hhere
    exact isSpelled_of_mem_components (mem_of_mem_normalComponents hmem) hroot hhere
  rw [heq] at hspelled
  have hnames : ∀ component ∈ names.map Component.name, component.IsSpelled := by
    intro component hmem
    have hmem' := List.mem_append_right outset hmem
    obtain ⟨text, _, rfl⟩ := List.mem_map.1 hmem
    exact hspelled _ hmem' (by simp) (by simp)
  unfold normalize
  rw [heq]
  rcases houtset with rfl | ⟨count, rfl⟩
  · exact (components_ofChars_spell hnames).2
  · refine (components_ofChars_spell ?_).1
    intro component hmem
    rcases List.mem_append.1 hmem with hup | hname
    · rw [List.eq_of_mem_replicate hup]
      exact ⟨rfl, by decide⟩
    · exact hnames component hname

theorem normalize_normalize (path : Path) : path.normalize.normalize = path.normalize := by
  have hnormal := isNormalForm_normalComponents path.components
  have hcomponents :
      normalComponents path.normalize.components = normalComponents path.components := by
    rw [components_normalize, normalComponents_of_isNormalForm hnormal]
  unfold normalize at hcomponents ⊢
  rw [hcomponents]

def IsNormal (path : Path) : Prop :=
  path.normalize = path

theorem isNormal_normalize (path : Path) : path.normalize.IsNormal :=
  normalize_normalize path

theorem isNormal_absolutize (path base : Path) : (path.absolutize base).IsNormal := by
  unfold absolutize
  split
  · exact isNormal_normalize path
  · exact isNormal_normalize (base.join path)

/-- A normal path is written in one way only. -/
theorem IsNormal.eq_of_same {a b : Path} (ha : a.IsNormal) (hb : b.IsNormal)
    (h : a.same b = true) : a = b :=
  calc
    a = a.normalize := ha.symm
    _ = b.normalize := normalize_congr h
    _ = b := hb

theorem IsNormal.same_iff_eq {a b : Path} (ha : a.IsNormal) (hb : b.IsNormal) :
    a.same b = true ↔ a = b := by
  constructor
  · exact ha.eq_of_same hb
  · rintro rfl
    exact same_refl a

/-! ## The last name -/

/-- The last of the components stays the last when it is a name. -/
theorem getLast?_normalComponents {components : List Component} {text : List Char}
    (h : components.getLast? = some (.name text)) :
    (normalComponents components).getLast? = some (.name text) := by
  obtain ⟨earlier, rfl⟩ := List.getLast?_eq_some_iff.1 h
  simp [normalComponents, pushNormal_name]

theorem fileName?_eq_some_iff {path : Path} {text : List Char} :
    path.fileName? = some text ↔ path.components.getLast? = some (.name text) := by
  unfold fileName?
  split <;> simp_all

theorem fileName?_normalize {path : Path} {text : List Char} (h : path.fileName? = some text) :
    path.normalize.fileName? = some text := by
  rw [fileName?_eq_some_iff] at h ⊢
  rw [components_normalize]
  exact getLast?_normalComponents h

/-- The last name of a relative path is that of its pieces. -/
theorem getLast?_pieceComponents {path : Path} {text : List Char}
    (h : path.fileName? = some text) :
    (pieceComponents path.chars).getLast? = some (.name text) := by
  rw [fileName?_eq_some_iff, components_eq, List.getLast?_append] at h
  cases hlast : (pieceComponents path.chars).getLast? with
  | none => cases hh : path.cut.head <;> simp_all [Head.components]
  | some last => simpa [hlast] using h

theorem fileName?_join {path : Path} (base : Path) {text : List Char}
    (h : path.fileName? = some text) : (base.join path).fileName? = some text := by
  by_cases hpath : path.isAbsolute = true
  · rwa [join_of_isAbsolute hpath]
  · by_cases hbase : base.chars = []
    · simpa [join, hbase] using h
    · have hlast := getLast?_pieceComponents h
      rw [fileName?_eq_some_iff, components_join (by simpa using hpath) hbase,
        List.getLast?_append, hlast]
      rfl

theorem fileName?_absolutize {path : Path} (base : Path) {text : List Char}
    (h : path.fileName? = some text) : (path.absolutize base).fileName? = some text := by
  unfold absolutize
  split
  · exact fileName?_normalize h
  · exact fileName?_normalize (fileName?_join base h)

/-- Being made absolute takes no file away from the compiler. -/
theorem isTypeScript_absolutize {path : Path} (base : Path) (h : path.isTypeScript = true) :
    (path.absolutize base).isTypeScript = true := by
  cases hname : path.fileName? with
  | none => simp [isTypeScript, extension?, hname] at h
  | some text =>
      have hsame := fileName?_absolutize base hname
      simpa [isTypeScript, extension?, hname, hsame] using h

/-! ## Absolute paths -/

theorem exists_pushNormal_root (stack : List Component) (component : Component) :
    ∃ top, pushNormal (stack ++ [.root]) component = top ++ [.root] := by
  cases component with
  | here => exact ⟨stack, by simp [pushNormal]⟩
  | root => exact ⟨[], by simp [pushNormal]⟩
  | name text => exact ⟨.name text :: stack, by simp [pushNormal_name]⟩
  | up =>
      cases stack with
      | nil => exact ⟨[], rfl⟩
      | cons last rest =>
          cases last with
          | name text => exact ⟨rest, rfl⟩
          | root => exact ⟨.root :: rest, rfl⟩
          | here => exact ⟨.up :: .here :: rest, rfl⟩
          | up => exact ⟨.up :: .up :: rest, rfl⟩

theorem exists_foldl_pushNormal_root (components stack : List Component) :
    ∃ top, components.foldl pushNormal (stack ++ [.root]) = top ++ [.root] := by
  induction components generalizing stack with
  | nil => exact ⟨stack, rfl⟩
  | cons component rest ih =>
      obtain ⟨top, htop⟩ := exists_pushNormal_root stack component
      rw [List.foldl_cons, htop]
      exact ih top

theorem exists_components_of_isAbsolute {path : Path} (h : path.isAbsolute = true) :
    ∃ rest, path.components = .root :: pieceComponents rest := by
  obtain ⟨rest, hchars⟩ : ∃ rest, path.chars = '/' :: rest :=
    List.head?_eq_some_iff.1 (eq_of_beq h)
  refine ⟨rest, ?_⟩
  rw [← components_ofChars_cons_slash, ← hchars, ofChars_chars]

theorem isAbsolute_normalize {path : Path} (h : path.isAbsolute = true) :
    path.normalize.isAbsolute = true := by
  obtain ⟨rest, hroot⟩ := exists_components_of_isAbsolute h
  obtain ⟨top, htop⟩ := exists_foldl_pushNormal_root (pieceComponents rest) []
  have hnormal : normalComponents path.components = .root :: top.reverse := by
    have hfirst : pushNormal [] .root = [] ++ [.root] := rfl
    rw [hroot, normalComponents, List.foldl_cons, hfirst, htop, List.reverse_append]
    rfl
  simp [normalize, hnormal, spell, isAbsolute]

theorem isAbsolute_join {base : Path} (h : base.isAbsolute = true) (path : Path) :
    (base.join path).isAbsolute = true := by
  obtain ⟨rest, hchars⟩ : ∃ rest, base.chars = '/' :: rest :=
    List.head?_eq_some_iff.1 (eq_of_beq h)
  by_cases hpath : path.isAbsolute = true
  · rwa [join_of_isAbsolute hpath]
  · unfold join
    rw [hchars]
    split
    · simp_all
    · split <;> simp [isAbsolute]

/-- Below an absolute base every path is absolute. -/
theorem isAbsolute_absolutize {base : Path} (h : base.isAbsolute = true) (path : Path) :
    (path.absolutize base).isAbsolute = true := by
  unfold absolutize
  split
  · exact isAbsolute_normalize ‹_›
  · exact isAbsolute_normalize (isAbsolute_join h path)

end Path

end ScopedCheck

import ScopedCheck.Proofs.Path.NormalForm

/-!
# Normal paths as canonical forms

The components of a path act on a stack, and those of its normal form act on every
stack in the same way.  A path below another one acts as both do, one after the
other.  So normalization can be put in and left out wherever a path is resolved.
-/

namespace ScopedCheck

namespace Path

/-! ## Components as actions on stacks -/

/-- A stack with one more component acts as the stack does, and then the component. -/
theorem foldl_pushNormal_reverse (stack below : List Component) (component : Component) :
    (pushNormal stack component).reverse.foldl pushNormal below =
      pushNormal (stack.reverse.foldl pushNormal below) component := by
  cases component with
  | here => simp [pushNormal]
  | root => simp [pushNormal]
  | name text => simp [pushNormal_name]
  | up =>
      cases stack with
      | nil => rfl
      | cons last rest =>
          cases last with
          | name text => simp [pushNormal]
          | root => simp [pushNormal]
          | here => simp [pushNormal]
          | up => simp [pushNormal]

theorem foldl_pushNormal_foldl (components stack below : List Component) :
    (components.foldl pushNormal stack).reverse.foldl pushNormal below =
      components.foldl pushNormal (stack.reverse.foldl pushNormal below) := by
  induction components generalizing stack with
  | nil => rfl
  | cons component rest ih =>
      rw [List.foldl_cons, ih, foldl_pushNormal_reverse]
      rfl

theorem foldl_pushNormal_normalComponents (components below : List Component) :
    (normalComponents components).foldl pushNormal below = components.foldl pushNormal below :=
  foldl_pushNormal_foldl components [] below

/-! ## Absolute paths and their root -/

theorem head_of_not_isAbsolute {path : Path} (h : path.isAbsolute = false) :
    path.cut.head = .here ∨ path.cut.head = .bare := by
  by_cases hnil : path.chars = []
  · right
    rw [← ofChars_chars path, hnil]
    rfl
  · cases hs : Text.splitAt '/' path.chars with
    | nil => exact absurd hs (Text.splitAt_ne_nil '/' path.chars)
    | cons first more =>
        have hhead := cut_head_ofChars hnil hs
        rw [ofChars_chars] at hhead
        rw [hhead]
        unfold Head.ofPiece
        split
        · cases hchars : path.chars with
          | nil => exact absurd hchars hnil
          | cons c rest =>
              have hc : c ≠ '/' := by
                rintro rfl
                simp [isAbsolute, hchars] at h
              rw [hchars, Text.splitAt, if_neg hc] at hs
              cases hrest : Text.splitAt '/' rest <;> simp [hrest, Text.consFirst] at hs
        · exact .inl rfl
        · exact .inr rfl

theorem root_mem_components_iff {path : Path} :
    .root ∈ path.components ↔ path.isAbsolute = true := by
  constructor
  · intro hmem
    rw [components_eq, List.mem_append] at hmem
    rcases hmem with hhead | hpiece
    · by_cases habsolute : path.isAbsolute = true
      · exact habsolute
      · rcases head_of_not_isAbsolute (Bool.eq_false_iff.2 habsolute) with heq | heq <;>
          simp [heq, Head.components] at hhead
    · exact absurd rfl (isSpelled_of_mem_pieceComponents hpiece).ne_root
  · intro habsolute
    obtain ⟨rest, heq⟩ := exists_components_of_isAbsolute habsolute
    rw [heq]
    exact List.mem_cons_self

theorem isAbsolute_normalize_iff {path : Path} :
    path.normalize.isAbsolute = true ↔ path.isAbsolute = true := by
  constructor
  · intro h
    rw [← root_mem_components_iff, components_normalize] at h
    exact root_mem_components_iff.1 (mem_of_mem_normalComponents h)
  · exact isAbsolute_normalize

/-! ## Paths below paths -/

theorem foldl_pushNormal_join (base path : Path) (below : List Component) :
    (base.join path).components.foldl pushNormal below =
      path.components.foldl pushNormal (base.components.foldl pushNormal below) := by
  by_cases habsolute : path.isAbsolute = true
  · obtain ⟨rest, heq⟩ := exists_components_of_isAbsolute habsolute
    rw [join_of_isAbsolute habsolute, heq, List.foldl_cons, List.foldl_cons]
    simp [pushNormal]
  · by_cases hbase : base.chars = []
    · have hnone : base.components = [] := by
        rw [← ofChars_chars base, hbase]
        rfl
      have hjoin : base.join path = path := by simp [join, hbase]
      rw [hjoin, hnone, List.foldl_nil]
    · have hrelative : path.isAbsolute = false := Bool.eq_false_iff.2 habsolute
      rw [components_join hrelative hbase, components_eq path, List.foldl_append, List.foldl_append]
      rcases head_of_not_isAbsolute hrelative with heq | heq <;>
        simp [heq, Head.components, pushNormal]

theorem absolutize_eq_normalize_join (path base : Path) :
    path.absolutize base = (base.join path).normalize := by
  by_cases habsolute : path.isAbsolute = true
  · rw [absolutize_of_isAbsolute base habsolute, join_of_isAbsolute habsolute]
  · rw [absolutize, if_neg habsolute]

theorem normalize_eq_of_foldl {a b : Path}
    (h : a.components.foldl pushNormal [] = b.components.foldl pushNormal []) :
    a.normalize = b.normalize := by
  rw [normalize, normalize, normalComponents, normalComponents, h]

theorem absolutize_normalize (path base : Path) :
    path.normalize.absolutize base = path.absolutize base := by
  rw [absolutize_eq_normalize_join, absolutize_eq_normalize_join]
  apply normalize_eq_of_foldl
  rw [foldl_pushNormal_join, foldl_pushNormal_join, components_normalize,
    foldl_pushNormal_normalComponents]

theorem absolutize_absolutize_base (path inner base : Path) :
    path.absolutize (inner.absolutize base) = (inner.join path).absolutize base := by
  rw [absolutize_eq_normalize_join, absolutize_eq_normalize_join, absolutize_eq_normalize_join]
  apply normalize_eq_of_foldl
  rw [foldl_pushNormal_join, components_normalize, foldl_pushNormal_normalComponents,
    foldl_pushNormal_join, foldl_pushNormal_join, foldl_pushNormal_join]

theorem absolutize_absolutize {base : Path} (h : base.isAbsolute = true) (path other : Path) :
    (path.absolutize base).absolutize other = path.absolutize base := by
  rw [absolutize_of_isAbsolute other (isAbsolute_absolutize h path)]
  exact isNormal_absolutize path base

/-! ## Canonical spellings -/

/-- A path without detours that is written as its components are spelled. -/
structure IsCanonical (path : Path) : Prop where
  here_not_mem : .here ∉ path.components
  up_not_after_name : path.components.Pairwise fun earlier later =>
    later = .up → ∀ text, earlier ≠ .name text
  up_not_mem : path.isAbsolute = true → .up ∉ path.components
  chars_eq : path.chars = spell path.components

theorem isCanonical_normalize (path : Path) : path.normalize.IsCanonical := by
  obtain ⟨outset, names, houtset, heq⟩ := isNormalForm_normalComponents path.components
  have hcomponents := components_normalize path
  rw [heq] at hcomponents
  refine ⟨?_, ?_, ?_, ?_⟩
  · rw [hcomponents]
    rcases houtset with rfl | ⟨count, rfl⟩ <;> simp [List.mem_replicate]
  · rw [hcomponents]
    refine List.pairwise_append.2 ⟨?_, ?_, ?_⟩
    · rcases houtset with rfl | ⟨count, rfl⟩ <;> simp [List.pairwise_replicate]
    · rw [List.pairwise_map]
      exact List.pairwise_of_forall fun _ _ hup => by cases hup
    · intro earlier _ later hlater hup
      obtain ⟨text, _, rfl⟩ := List.mem_map.1 hlater
      cases hup
  · intro habsolute
    rw [← root_mem_components_iff] at habsolute
    rw [hcomponents] at habsolute ⊢
    rcases houtset with rfl | ⟨count, rfl⟩
    · simp
    · simp [List.mem_replicate] at habsolute
  · rw [components_normalize, normalize, chars_ofChars]

/--
Normalization gives every path one spelling, and resolving a path does not depend on it.

The spelling has no detours, begins at the root where the path does and keeps its last name.
A path is resolved below a resolved one as both are, one below the other, and what is resolved
below an absolute base is absolute and stays as it is.
-/
theorem normalize_canonical :
    (∀ path : Path, path.normalize.normalize = path.normalize ∧ path.normalize.IsCanonical ∧
        (path.normalize.isAbsolute = true ↔ path.isAbsolute = true) ∧
        ∀ text, path.fileName? = some text → path.normalize.fileName? = some text) ∧
      (∀ path other : Path, path.normalize.same other.normalize = true →
        path.normalize = other.normalize) ∧
      (∀ path inner base : Path, path.normalize.absolutize base = path.absolutize base ∧
        path.absolutize (inner.absolutize base) = (inner.join path).absolutize base) ∧
      ∀ path base : Path, base.isAbsolute = true → (path.absolutize base).isAbsolute = true ∧
        ∀ other, (path.absolutize base).absolutize other = path.absolutize base := by
  refine ⟨?_, ?_, ?_, ?_⟩
  · intro path
    exact ⟨normalize_normalize path, isCanonical_normalize path, isAbsolute_normalize_iff,
      fun _ => fileName?_normalize⟩
  · intro path other h
    exact (isNormal_normalize path).eq_of_same (isNormal_normalize other) h
  · intro path inner base
    exact ⟨absolutize_normalize path base, absolutize_absolutize_base path inner base⟩
  · intro path base h
    exact ⟨isAbsolute_absolutize h path, absolutize_absolutize h path⟩

/-- A path that leaves its base, with `.` and separators to spare, below an absolute one. -/
theorem normalize_canonical_outside_base :
    let path : Path := ⟨"./x//../../y/./a.ts/"⟩
    let base : Path := ⟨"/p/./q/"⟩
    path.normalize = ⟨"../y/a.ts"⟩ ∧ path.fileName? = some ['a', '.', 't', 's'] ∧
      path.normalize.fileName? = some ['a', '.', 't', 's'] ∧
      path.normalize.same (Path.mk "../y//a.ts").normalize = true ∧
      path.normalize = (Path.mk "../y//a.ts").normalize ∧
      base.isAbsolute = true ∧ path.absolutize base = ⟨"/p/y/a.ts"⟩ ∧
      ∀ other, (path.absolutize base).absolutize other = path.absolutize base := by
  intro path base
  have hname : path.fileName? = some ['a', '.', 't', 's'] := by decide +kernel
  have hsame : path.normalize.same (Path.mk "../y//a.ts").normalize = true := by decide +kernel
  have hbase : base.isAbsolute = true := by decide +kernel
  obtain ⟨hnormal, hspelling, _, hresolved⟩ := normalize_canonical
  exact ⟨by decide +kernel, hname, (hnormal path).2.2.2 _ hname, hsame, hspelling _ _ hsame, hbase,
    by decide +kernel, (hresolved path base hbase).2⟩

end Path

end ScopedCheck

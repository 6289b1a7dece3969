import ScopedCheck.Proofs.Path.NormalForm

/-!
# Paths below a base

An absolute normal path is spelled by its names.  It is below another one when
its names begin with the names of that one, and the rest spell it from there.
-/

namespace ScopedCheck

namespace Path

def spellNames (names : List (List Char)) : List Char :=
  Text.joinWith ['/'] names

theorem pieces_of_names (names : List (List Char)) :
    (names.map Component.name).map Component.piece = names := by
  rw [List.map_map]
  exact List.map_id names

/-! ## Absolute normal paths -/

/-- An absolute normal path through its names. -/
structure HasNames (path : Path) (names : List (List Char)) : Prop where
  spelled : ∀ component ∈ names.map Component.name, component.IsSpelled
  chars_eq : path.chars = '/' :: spellNames names

theorem exists_hasNames {path : Path} (hnormal : path.IsNormal)
    (habsolute : path.isAbsolute = true) : ∃ names, HasNames path names := by
  obtain ⟨rest, hroot⟩ := exists_components_of_isAbsolute habsolute
  have hfixed : normalComponents path.components = path.components := by
    rw [← components_normalize, hnormal]
  obtain ⟨outset, names, houtset, heq⟩ := isNormalForm_normalComponents path.components
  rw [hfixed, hroot] at heq
  have houtset_eq : outset = [.root] := by
    rcases houtset with h | ⟨count, h⟩
    · exact h
    · cases count with
      | zero => cases names <;> simp [h] at heq
      | succ count => simp [h, List.replicate_succ] at heq
  rw [houtset_eq, List.singleton_append] at heq
  refine ⟨names, ?_, ?_⟩
  · intro component hmem
    have hpiece : component ∈ pieceComponents rest := by
      rw [(List.cons.inj heq).2]
      exact hmem
    exact isSpelled_of_mem_pieceComponents hpiece
  · have hspelling : path.chars = spell (.root :: names.map .name) := by
      have hself : path.normalize.chars = spell (normalComponents path.components) := by
        rw [normalize, chars_ofChars]
      rw [hnormal, hfixed, hroot, heq] at hself
      exact hself
    rw [hspelling, spell, pieces_of_names, spellNames]

namespace HasNames

variable {path : Path} {names : List (List Char)}

theorem components_eq (h : HasNames path names) :
    path.components = .root :: names.map .name := by
  have hpieces := pieceComponents_joinWith h.spelled
  rw [pieces_of_names] at hpieces
  rw [← ofChars_chars path, h.chars_eq, components_ofChars_cons_slash, spellNames, hpieces]

theorem isFiller_eq_false (h : HasNames path names) {name : List Char} (hmem : name ∈ names) :
    isFiller name = false := by
  have hspelled := (h.spelled (.name name) (List.mem_map.2 ⟨name, hmem, rfl⟩)).1
  simp only [Component.piece] at hspelled
  simp [isFiller, hspelled]

theorem cut_eq (h : HasNames path names) :
    path.cut = ⟨.root, if names.isEmpty then [[]] else names⟩ := by
  have hsplit : Text.splitAt '/' (spellNames names) = if names.isEmpty then [[]] else names := by
    cases names with
    | nil => rfl
    | cons first rest =>
        have hpieces := splitAt_joinWith_pieces (by simp) h.spelled
        rw [pieces_of_names] at hpieces
        exact hpieces
  rw [← ofChars_chars path, h.chars_eq, cut_ofChars_cons_slash, hsplit]

end HasNames

/-! ## Taking the base away -/

theorem dropComponents_of_names {names : List (List Char)}
    (h : ∀ name ∈ names, isFiller name = false) (count : Nat) :
    dropComponents count names = names.drop count := by
  induction names generalizing count with
  | nil => cases count <;> rfl
  | cons name rest ih =>
      cases count with
      | zero => rfl
      | succ count =>
          have hrest := ih (fun other hmem => h other (List.mem_cons_of_mem name hmem)) count
          simp [dropComponents, h name List.mem_cons_self, hrest]

theorem dropWhile_isFiller_of_names {names : List (List Char)}
    (h : ∀ name ∈ names, isFiller name = false) : names.dropWhile isFiller = names := by
  cases names with
  | nil => rfl
  | cons name rest => simp [h name List.mem_cons_self]

theorem dropFillersEnd_of_names {names : List (List Char)}
    (h : ∀ name ∈ names, isFiller name = false) : dropFillersEnd names = names := by
  have hreverse : ∀ name ∈ names.reverse, isFiller name = false :=
    fun name hmem => h name (List.mem_reverse.1 hmem)
  rw [dropFillersEnd, dropWhile_isFiller_of_names hreverse, List.reverse_reverse]

theorem isPrefixOf_map_name (outer names : List (List Char)) :
    (outer.map Component.name).isPrefixOf (names.map Component.name) = outer.isPrefixOf names := by
  induction outer generalizing names with
  | nil => simp
  | cons first rest ih =>
      cases names with
      | nil => rfl
      | cons name more =>
          have hname : (Component.name first == Component.name name) = (first == name) := by
            rw [Bool.eq_iff_iff]
            simp
          simp only [List.map_cons, List.isPrefixOf_cons_cons, ih, hname]

/-- The pieces after the root, with those of the base and the fillers taken away. -/
theorem body_below {names : List (List Char)} (h : ∀ name ∈ names, isFiller name = false)
    (count : Nat) :
    dropFillersEnd ((dropComponents count (if names.isEmpty then [[]] else names)).dropWhile
      isFiller) = names.drop count := by
  cases names with
  | nil => cases count <;> rfl
  | cons name rest =>
      have hbelow : ∀ other ∈ (name :: rest).drop count, isFiller other = false :=
        fun other hmem => h other (List.mem_of_mem_drop hmem)
      rw [if_neg (by simp), dropComponents_of_names h, dropWhile_isFiller_of_names hbelow,
        dropFillersEnd_of_names hbelow]

/-- What is left of an absolute normal path below another one. -/
theorem relativeTo?_of_hasNames {path base : Path} {names outer : List (List Char)}
    (hpath : HasNames path names) (hbase : HasNames base outer) :
    path.relativeTo? base =
      if outer.isPrefixOf names then some (ofChars (spellNames (names.drop outer.length)))
      else none := by
  have hfillers : ∀ name ∈ names, isFiller name = false := fun _ => hpath.isFiller_eq_false
  have hprefix : base.components.isPrefixOf path.components = outer.isPrefixOf names := by
    rw [hbase.components_eq, hpath.components_eq, List.isPrefixOf_cons_cons, isPrefixOf_map_name]
    simp
  have hcount : base.components.length = outer.length + 1 := by
    rw [hbase.components_eq, List.length_cons, List.length_map]
  have hbody : dropFillersEnd ((dropComponents outer.length path.cut.body).dropWhile isFiller) =
      names.drop outer.length := by
    rw [hpath.cut_eq]
    exact body_below hfillers outer.length
  have hhead : path.cut.head.components.length = 1 := by
    rw [hpath.cut_eq]
    rfl
  simp only [relativeTo?, hprefix, hcount, hhead, Nat.add_sub_cancel, hbody,
    Nat.add_one_ne_zero, if_false]
  rfl

/-- A path is below a base when more names follow those of the base; they are what is left. -/
theorem relativeTo?_eq_some_iff {path base relative : Path} (hpath : path.IsNormal)
    (hpathAbsolute : path.isAbsolute = true) (hbase : base.IsNormal)
    (hbaseAbsolute : base.isAbsolute = true) :
    path.relativeTo? base = some relative ↔
      ∃ below, path.components = base.components ++ below.map .name ∧
        relative.chars = spellNames below := by
  obtain ⟨names, hnames⟩ := exists_hasNames hpath hpathAbsolute
  obtain ⟨outer, houter⟩ := exists_hasNames hbase hbaseAbsolute
  rw [relativeTo?_of_hasNames hnames houter, hnames.components_eq, houter.components_eq]
  constructor
  · intro h
    split at h
    · rename_i hprefix
      obtain ⟨below, rfl⟩ := List.isPrefixOf_iff_prefix.1 hprefix
      refine ⟨below, by simp, ?_⟩
      rw [← Option.some.inj h, chars_ofChars, List.drop_left]
    · cases h
  · rintro ⟨below, hcomponents, hrelative⟩
    rw [List.cons_append, List.cons.injEq, ← List.map_append] at hcomponents
    have hsplit := (List.map_inj_right fun _ _ h => Component.name.inj h).1 hcomponents.2
    rw [hsplit, if_pos (List.isPrefixOf_iff_prefix.2 (List.prefix_append _ _)), List.drop_left,
      ← hrelative, ofChars_chars]

end Path

end ScopedCheck

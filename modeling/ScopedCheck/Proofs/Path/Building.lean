import ScopedCheck.Proofs.Path.Relative

/-!
# Normal paths built component by component

A normal path can be built on its spelling alone: a name or a `..` is written after
what is there, and a `..` after a name takes that name off.  What is spelled is the
stack of normal components all along.
-/

namespace ScopedCheck

namespace Path

def pushOnto (out : Path) : Component → Path
  | .here => out
  | .root => out.join (ofChars ['/'])
  | .name text => out.join (ofChars text)
  | .up =>
      match out.components.getLast? with
      | some (.name _) => out.parent?.getD out
      | some .root => out
      | _ => out.join (ofChars ['.', '.'])

/-! ## Spellings with one more piece -/

theorem isFiller_piece {component : Component} (h : component.IsSpelled) :
    isFiller component.piece = false := by
  simp [isFiller, h.1]

theorem isAbsolute_ofChars_piece {component : Component} (h : component.IsSpelled) :
    (ofChars component.piece).isAbsolute = false := by
  rw [isAbsolute, chars_ofChars]
  cases hpiece : component.piece with
  | nil => rfl
  | cons c rest =>
      have hc : c ≠ '/' := by
        rintro rfl
        exact h.2 (by rw [hpiece]; exact List.mem_cons_self)
      simp [hc]

theorem getLast?_joinWith_pieces {steps : List Component} (hne : steps ≠ [])
    (h : ∀ step ∈ steps, step.IsSpelled) :
    (Text.joinWith ['/'] (steps.map Component.piece)).getLast? ≠ some '/' := by
  intro hlast
  obtain ⟨text, htext⟩ := List.getLast?_eq_some_iff.1 hlast
  have hsplit := splitAt_joinWith_pieces hne h
  rw [htext, Text.splitAt_append_cons] at hsplit
  have hempty : [] ∈ steps.map Component.piece := by
    rw [← hsplit]
    simp [Text.splitAt]
  obtain ⟨step, hmem, hnil⟩ := List.mem_map.1 hempty
  exact (h step hmem).piece_ne_nil hnil

theorem isSpelled_concat {steps : List Component} (hsteps : ∀ step ∈ steps, step.IsSpelled)
    {component : Component} (h : component.IsSpelled) :
    ∀ step ∈ steps ++ [component], step.IsSpelled := by
  intro step hmem
  rcases List.mem_append.1 hmem with hstep | hlast
  · exact hsteps step hstep
  · rw [List.mem_singleton.1 hlast]
    exact h

theorem isSpelled_reverse {top : List Component} (h : ∀ step ∈ top, step.IsSpelled) :
    ∀ step ∈ top.reverse, step.IsSpelled :=
  fun step hmem => h step (List.mem_reverse.1 hmem)

section Spelled

variable {outset : List Component} (houtset : outset = [] ∨ outset = [.root])
variable {steps : List Component} (hsteps : ∀ step ∈ steps, step.IsSpelled)

include houtset hsteps

theorem components_ofChars_spell_append :
    (ofChars (spell (outset ++ steps))).components = outset ++ steps := by
  rcases houtset with rfl | rfl
  · exact (components_ofChars_spell hsteps).1
  · exact (components_ofChars_spell hsteps).2

theorem spell_append : spell (outset ++ steps) =
    spell outset ++ Text.joinWith ['/'] (steps.map Component.piece) := by
  rcases houtset with rfl | rfl
  · exact spell_of_isSpelled hsteps
  · rfl

theorem join_ofChars_spell {component : Component} (h : component.IsSpelled) :
    (ofChars (spell (outset ++ steps))).join (ofChars component.piece) =
      ofChars (spell (outset ++ (steps ++ [component]))) := by
  have hmore := isSpelled_concat hsteps h
  rw [spell_append houtset hsteps, spell_append houtset hmore, join, isAbsolute_ofChars_piece h]
  simp only [chars_ofChars, Bool.false_or]
  by_cases hnil : steps = []
  · rcases houtset with rfl | rfl <;> simp [hnil, spell, Text.joinWith]
  · have hpieces : steps.map Component.piece ≠ [] := by simpa using hnil
    have htext := joinWith_pieces_ne_nil hnil hsteps
    have hlast : (spell outset ++ Text.joinWith ['/'] (steps.map Component.piece)).getLast? ≠
        some '/' := by
      rw [List.getLast?_append, List.getLast?_eq_some_getLast htext, Option.some_or,
        ← List.getLast?_eq_some_getLast htext]
      exact getLast?_joinWith_pieces hnil hsteps
    rw [if_neg (by simp [htext]), if_neg (by simp only [beq_iff_eq]; exact hlast),
      List.map_append, List.map_singleton, Text.joinWith_concat _ hpieces, List.append_assoc,
      List.append_assoc, List.append_assoc]

theorem cut_ofChars_spell (hne : steps ≠ []) :
    (ofChars (spell (outset ++ steps))).cut =
      ⟨if outset = [] then .bare else .root, steps.map Component.piece⟩ := by
  have hsplit := splitAt_joinWith_pieces hne hsteps
  rw [spell_append houtset hsteps]
  rcases houtset with rfl | rfl
  · have hspell : spell [] = [] := rfl
    rw [hspell, List.nil_append, if_pos rfl, cut, chars_ofChars, Cut.ofText, hsplit]
    cases steps with
    | nil => exact absurd rfl hne
    | cons first rest =>
        have hfirst := hsteps first List.mem_cons_self
        rw [List.map_cons]
        split
        · rename_i heq
          exact absurd (List.cons.inj heq).1 hfirst.piece_ne_nil
        · rename_i heq
          exact absurd (List.cons.inj heq).1 hfirst.piece_ne_dot
        · rfl
  · have hspell : spell [.root] = ['/'] := rfl
    rw [hspell, List.singleton_append, cut_ofChars_cons_slash, hsplit, if_neg (by simp)]

theorem parent?_ofChars_spell {component : Component} (h : component.IsSpelled) :
    (ofChars (spell (outset ++ (steps ++ [component])))).parent? =
      some (ofChars (spell (outset ++ steps))) := by
  have hmore := isSpelled_concat hsteps h
  have hfillers : ∀ piece ∈ (steps ++ [component]).map Component.piece, isFiller piece = false := by
    intro piece hmem
    obtain ⟨step, hstep, rfl⟩ := List.mem_map.1 hmem
    exact isFiller_piece (hmore step hstep)
  have hfewer : ∀ piece ∈ steps.map Component.piece, isFiller piece = false := by
    intro piece hmem
    exact hfillers piece (by rw [List.map_append]; exact List.mem_append_left _ hmem)
  rw [parent?, cut_ofChars_spell houtset hmore (by simp)]
  simp only [dropFillersEnd_of_names hfillers, spell_append houtset hsteps]
  rw [List.map_append, List.map_singleton]
  cases hpieces : steps.map Component.piece ++ [component.piece] with
  | nil => simp at hpieces
  | cons first rest =>
      simp only
      rw [← hpieces, List.dropLast_concat, dropFillersEnd_of_names hfewer]
      rcases houtset with rfl | rfl <;> rfl

end Spelled

/-! ## Spellings and stacks -/

/-- A path is the spelling of a stack: perhaps the root, then pieces. -/
def Spells (out : Path) (stack : List Component) : Prop :=
  ∃ outset top, (outset = [] ∨ outset = [.root]) ∧ (∀ step ∈ top, step.IsSpelled) ∧
    stack = top ++ outset ∧ out = ofChars (spell (outset ++ top.reverse))

theorem spells_root (out : Path) : Spells (out.join (ofChars ['/'])) [.root] := by
  have habsolute : (ofChars ['/']).isAbsolute = true := by simp [isAbsolute]
  refine ⟨[.root], [], .inr rfl, by simp, rfl, ?_⟩
  rw [join_of_isAbsolute habsolute]
  rfl

theorem Spells.join {out : Path} {stack : List Component} (h : Spells out stack)
    {component : Component} (hcomponent : component.IsSpelled) :
    Spells (out.join (ofChars component.piece)) (component :: stack) := by
  obtain ⟨outset, top, houtset, htop, rfl, rfl⟩ := h
  have hsteps := isSpelled_reverse htop
  refine ⟨outset, component :: top, houtset, ?_, rfl, ?_⟩
  · intro step hmem
    rcases List.mem_cons.1 hmem with rfl | hrest
    · exact hcomponent
    · exact htop step hrest
  · rw [join_ofChars_spell houtset hsteps hcomponent, List.reverse_cons]

/-- Going up looks at the last component that is spelled, which is the top of the stack. -/
theorem Spells.up {out : Path} {stack : List Component} (h : Spells out stack) :
    Spells (pushOnto out .up) (pushNormal stack .up) := by
  have hup : Component.up.IsSpelled := ⟨rfl, by decide⟩
  have hjoin := h.join hup
  obtain ⟨outset, top, houtset, htop, rfl, rfl⟩ := h
  have hsteps := isSpelled_reverse htop
  have hlast := components_ofChars_spell_append houtset hsteps
  unfold pushOnto
  rw [hlast]
  cases top with
  | nil =>
      rcases houtset with rfl | rfl
      · exact hjoin
      · exact ⟨[.root], [], .inr rfl, htop, rfl, rfl⟩
  | cons last rest =>
      have hrest : ∀ step ∈ rest, step.IsSpelled :=
        fun step hmem => htop step (List.mem_cons_of_mem last hmem)
      rw [List.reverse_cons, ← List.append_assoc, List.getLast?_concat, List.append_assoc]
      rw [List.reverse_cons] at hjoin
      cases last with
      | root => exact absurd rfl (htop .root List.mem_cons_self).ne_root
      | here => exact absurd rfl (htop .here List.mem_cons_self).piece_ne_dot
      | up => exact hjoin
      | name text =>
          have hparent := parent?_ofChars_spell houtset (isSpelled_reverse hrest)
            (htop _ List.mem_cons_self)
          simp only [hparent, Option.getD_some]
          exact ⟨outset, rest, houtset, hrest, rfl, rfl⟩

theorem Spells.push {out : Path} {stack : List Component} (h : Spells out stack)
    {component : Component}
    (hcomponent : component ≠ .root → component ≠ .here → component.IsSpelled) :
    Spells (pushOnto out component) (pushNormal stack component) := by
  cases component with
  | here => simpa [pushOnto, pushNormal] using h
  | root => simpa [pushOnto, pushNormal] using spells_root out
  | up => exact h.up
  | name text =>
      have hname := h.join (hcomponent (by simp) (by simp))
      simp only [Component.piece] at hname
      rw [pushNormal_name, pushOnto]
      exact hname

theorem Spells.foldl {components : List Component}
    (hcomponents : ∀ component ∈ components,
      component ≠ .root → component ≠ .here → component.IsSpelled)
    {out : Path} {stack : List Component} (h : Spells out stack) :
    Spells (components.foldl pushOnto out) (components.foldl pushNormal stack) := by
  induction components generalizing out stack with
  | nil => exact h
  | cons component rest ih =>
      have hrest : ∀ other ∈ rest, other ≠ .root → other ≠ .here → other.IsSpelled :=
        fun other hmem => hcomponents other (List.mem_cons_of_mem component hmem)
      exact ih hrest (h.push (hcomponents component List.mem_cons_self))

/-- Building a path from its components, one after the other, normalizes it. -/
theorem foldl_pushOnto_eq_normalize (path : Path) :
    path.components.foldl pushOnto (ofChars []) = path.normalize := by
  have hempty : Spells (ofChars []) [] := ⟨[], [], .inl rfl, by simp, rfl, rfl⟩
  have hspelled : ∀ component ∈ path.components,
      component ≠ .root → component ≠ .here → component.IsSpelled :=
    fun _ => isSpelled_of_mem_components
  obtain ⟨outset, top, houtset, _, hstack, hout⟩ := hempty.foldl hspelled
  have hreverse : outset.reverse = outset := by rcases houtset with rfl | rfl <;> rfl
  rw [hout, normalize, normalComponents, hstack, List.reverse_append, hreverse]

end Path

end ScopedCheck

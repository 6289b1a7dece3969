import ScopedCheck.Path.Normal
import ScopedCheck.Proofs.Text.Splitting

/-!
# Components and spellings

A list of components that pieces can spell is read back from its spelling, and a
path written after another one has the components of both.
-/

namespace ScopedCheck

namespace Path

/-! ## Components that pieces spell -/

/-- Whether a component is the one that its own piece stands for. -/
def Component.IsSpelled (component : Component) : Prop :=
  pieceComponent component.piece = some component ∧ '/' ∉ component.piece

theorem piece_of_pieceComponent {piece : List Char} {component : Component}
    (h : pieceComponent piece = some component) : component.piece = piece := by
  unfold pieceComponent at h
  split at h <;> simp_all
  all_goals
    subst h
    rfl

theorem isSpelled_of_pieceComponent {piece : List Char} {component : Component}
    (h : pieceComponent piece = some component) (hslash : '/' ∉ piece) : component.IsSpelled := by
  have hpiece := piece_of_pieceComponent h
  exact ⟨by rw [hpiece, h], by rwa [hpiece]⟩

theorem Component.IsSpelled.piece_ne_nil {component : Component} (h : component.IsSpelled) :
    component.piece ≠ [] := by
  intro hnil
  simp [IsSpelled, hnil, pieceComponent] at h

theorem Component.IsSpelled.piece_ne_dot {component : Component} (h : component.IsSpelled) :
    component.piece ≠ ['.'] := by
  intro hdot
  simp [IsSpelled, hdot, pieceComponent] at h

theorem Component.IsSpelled.ne_root {component : Component} (h : component.IsSpelled) :
    component ≠ .root := by
  rintro rfl
  exact h.piece_ne_nil rfl

theorem filterMap_pieceComponent_pieces {components : List Component}
    (h : ∀ component ∈ components, component.IsSpelled) :
    (components.map Component.piece).filterMap pieceComponent = components := by
  induction components with
  | nil => rfl
  | cons component rest ih =>
      have hfirst := (h component List.mem_cons_self).1
      have hrest := ih fun other hmem => h other (List.mem_cons_of_mem component hmem)
      simp [hfirst, hrest]

/-! ## The components of a spelling -/

/-- What the pieces of a spelling stand for, its head left aside. -/
def pieceComponents (text : List Char) : List Component :=
  (Text.splitAt '/' text).filterMap pieceComponent

theorem isSpelled_of_mem_pieceComponents {text : List Char} {component : Component}
    (h : component ∈ pieceComponents text) : component.IsSpelled := by
  obtain ⟨piece, hmem, hpiece⟩ := List.mem_filterMap.1 h
  exact isSpelled_of_pieceComponent hpiece (Text.not_mem_of_mem_splitAt hmem)

/-- The pieces that a head takes away stand for nothing. -/
theorem components_eq (path : Path) :
    path.components = path.cut.head.components ++ pieceComponents path.chars := by
  unfold components Cut.components cut Cut.ofText pieceComponents
  split
  · rename_i piece rest heq
    have hnil : pieceComponent [] = none := rfl
    rw [heq, List.filterMap_cons_none hnil]
  · rename_i rest heq
    have hdot : pieceComponent ['.'] = none := rfl
    rw [heq, List.filterMap_cons_none hdot]
  · rfl

theorem pieceComponents_nil : pieceComponents [] = [] := by
  simp [pieceComponents, Text.splitAt, pieceComponent]

theorem pieceComponents_append_cons (text rest : List Char) :
    pieceComponents (text ++ '/' :: rest) = pieceComponents text ++ pieceComponents rest := by
  simp [pieceComponents, Text.splitAt_append_cons]

theorem splitAt_joinWith_pieces {components : List Component} (hne : components ≠ [])
    (h : ∀ component ∈ components, component.IsSpelled) :
    Text.splitAt '/' (Text.joinWith ['/'] (components.map Component.piece)) =
      components.map Component.piece := by
  refine Text.splitAt_joinWith (by simpa using hne) ?_
  intro piece hmem
  obtain ⟨component, hc, rfl⟩ := List.mem_map.1 hmem
  exact (h component hc).2

theorem joinWith_pieces_ne_nil {components : List Component} (hne : components ≠ [])
    (h : ∀ component ∈ components, component.IsSpelled) :
    Text.joinWith ['/'] (components.map Component.piece) ≠ [] := by
  intro hnil
  have hsplit := splitAt_joinWith_pieces hne h
  rw [hnil, Text.splitAt] at hsplit
  have hempty : [] ∈ components.map Component.piece := by
    rw [← hsplit]
    exact List.mem_cons_self
  obtain ⟨component, hmem, hpiece⟩ := List.mem_map.1 hempty
  exact (h component hmem).piece_ne_nil hpiece

theorem pieceComponents_joinWith {components : List Component}
    (h : ∀ component ∈ components, component.IsSpelled) :
    pieceComponents (Text.joinWith ['/'] (components.map Component.piece)) = components := by
  by_cases hnil : components = []
  · subst hnil
    exact pieceComponents_nil
  · rw [pieceComponents, splitAt_joinWith_pieces hnil h, filterMap_pieceComponent_pieces h]

@[simp] theorem chars_ofChars (text : List Char) : (ofChars text).chars = text := by
  simp [chars, ofChars]

@[simp] theorem ofChars_chars (path : Path) : ofChars path.chars = path := by
  simp [chars, ofChars]

/-! ## How a spelling begins -/

/-- The head of a spelling that begins with a piece and is not empty. -/
def Head.ofPiece : List Char → Head
  | [] => .root
  | ['.'] => .here
  | _ => .bare

theorem cut_head_ofChars {text first : List Char} {rest : List (List Char)} (hne : text ≠ [])
    (hs : Text.splitAt '/' text = first :: rest) :
    (ofChars text).cut.head = Head.ofPiece first := by
  have hjoin : Text.joinWith ['/'] (first :: rest) = text := by
    rw [← hs, Text.joinWith_splitAt]
  unfold cut Cut.ofText
  rw [chars_ofChars, hs]
  split
  · rename_i heq
    rw [(List.cons.inj heq).1]
    rfl
  · rename_i heq
    rw [(List.cons.inj heq).1]
    rfl
  · rename_i hroot hhere
    unfold Head.ofPiece
    split
    · cases rest with
      | nil => exact absurd hjoin.symm hne
      | cons piece more => exact absurd rfl (hroot piece more)
    · exact absurd rfl (hhere rest)
    · rfl

theorem cut_head_append_cons {before : List Char} (text : List Char) {first : List Char}
    {rest : List (List Char)} (hs : Text.splitAt '/' before = first :: rest) :
    (ofChars (before ++ '/' :: text)).cut.head = Head.ofPiece first := by
  have hsplit : Text.splitAt '/' (before ++ '/' :: text) =
      first :: (rest ++ Text.splitAt '/' text) := by
    rw [Text.splitAt_append_cons, hs]
    rfl
  exact cut_head_ofChars (by simp) hsplit

/-! ## Reading a spelling back -/

theorem cut_ofChars_cons_slash (text : List Char) :
    (ofChars ('/' :: text)).cut = ⟨.root, Text.splitAt '/' text⟩ := by
  have hsplit : Text.splitAt '/' ('/' :: text) = [] :: Text.splitAt '/' text := by
    simp [Text.splitAt]
  rw [cut, chars_ofChars, Cut.ofText, hsplit]
  cases hs : Text.splitAt '/' text with
  | nil => exact absurd hs (Text.splitAt_ne_nil '/' text)
  | cons piece rest => rfl

theorem components_ofChars_cons_slash (text : List Char) :
    (ofChars ('/' :: text)).components = .root :: pieceComponents text := by
  rw [components, cut_ofChars_cons_slash]
  rfl

theorem components_ofChars_joinWith {components : List Component}
    (h : ∀ component ∈ components, component.IsSpelled) :
    (ofChars (Text.joinWith ['/'] (components.map Component.piece))).components = components := by
  cases components with
  | nil => rfl
  | cons first rest =>
      have hfirst := h first List.mem_cons_self
      have hsplit := splitAt_joinWith_pieces (by simp) h
      have hne := joinWith_pieces_ne_nil (by simp) h
      have hhead : Head.ofPiece first.piece = .bare := by
        unfold Head.ofPiece
        split
        · exact absurd ‹_› hfirst.piece_ne_nil
        · exact absurd ‹_› hfirst.piece_ne_dot
        · rfl
      rw [components_eq, chars_ofChars, pieceComponents_joinWith h, cut_head_ofChars hne hsplit,
        hhead]
      rfl

theorem spell_of_isSpelled {components : List Component}
    (h : ∀ component ∈ components, component.IsSpelled) :
    spell components = Text.joinWith ['/'] (components.map Component.piece) := by
  cases components with
  | nil => rfl
  | cons first rest =>
      have hroot := (h first List.mem_cons_self).ne_root
      cases first <;> first | rfl | exact absurd rfl hroot

/-- Spelled components are read back, and so is the root before them. -/
theorem components_ofChars_spell {components : List Component}
    (h : ∀ component ∈ components, component.IsSpelled) :
    (ofChars (spell components)).components = components ∧
      (ofChars (spell (.root :: components))).components = .root :: components := by
  constructor
  · rw [spell_of_isSpelled h, components_ofChars_joinWith h]
  · rw [spell, components_ofChars_cons_slash, pieceComponents_joinWith h]

/-! ## One path after another -/

/-- A relative path after another one adds what its pieces stand for. -/
theorem components_join {base path : Path} (hpath : path.isAbsolute = false)
    (hbase : base.chars ≠ []) :
    (base.join path).components = base.components ++ pieceComponents path.chars := by
  have hempty : base.chars.isEmpty = false := by simpa using hbase
  unfold join
  rw [hpath, hempty]
  simp only [Bool.false_or, Bool.false_eq_true, if_false]
  split
  · rename_i hlast
    obtain ⟨before, hbefore⟩ : ∃ before, base.chars = before ++ ['/'] := by
      simp only [beq_iff_eq] at hlast
      exact List.getLast?_eq_some_iff.1 hlast
    cases hs : Text.splitAt '/' before with
    | nil => exact absurd hs (Text.splitAt_ne_nil '/' before)
    | cons first rest =>
        rw [← ofChars_chars base, hbefore, chars_ofChars, List.append_assoc, List.singleton_append,
          components_eq, components_eq, cut_head_append_cons _ hs, cut_head_append_cons _ hs,
          chars_ofChars, chars_ofChars, pieceComponents_append_cons, pieceComponents_append_cons,
          pieceComponents_nil, List.append_nil, List.append_assoc]
  · cases hs : Text.splitAt '/' base.chars with
    | nil => exact absurd hs (Text.splitAt_ne_nil '/' base.chars)
    | cons first rest =>
        have hhead : base.cut.head = Head.ofPiece first := by
          rw [← ofChars_chars base]
          exact cut_head_ofChars hbase hs
        rw [List.append_assoc, List.singleton_append, components_eq, components_eq base, hhead,
          cut_head_append_cons _ hs, chars_ofChars, pieceComponents_append_cons, List.append_assoc]

end Path

end ScopedCheck

import ScopedCheck.Text.Lines

/-!
# Splitting and joining

Splitting at a character and joining with it are inverse to each other on pieces
that do not have the character.
-/

namespace ScopedCheck

namespace Text

theorem splitAt_of_not_mem {separator : Char} {piece : List Char} (h : separator ∉ piece) :
    splitAt separator piece = [piece] := by
  induction piece with
  | nil => rfl
  | cons c rest ih =>
      rw [List.mem_cons, not_or] at h
      simp only [splitAt, if_neg (Ne.symm h.1), ih h.2, consFirst]

theorem splitAt_append_cons (separator : Char) (text rest : List Char) :
    splitAt separator (text ++ separator :: rest) =
      splitAt separator text ++ splitAt separator rest := by
  induction text with
  | nil => simp [splitAt]
  | cons c text ih =>
      simp only [List.cons_append, splitAt, ih]
      split
      · rfl
      · cases hs : splitAt separator text with
        | nil => exact absurd hs (splitAt_ne_nil separator text)
        | cons first more => simp [consFirst]

/-- Joining and splitting at a character that no piece has gives the pieces back. -/
theorem splitAt_joinWith {separator : Char} {pieces : List (List Char)} (hne : pieces ≠ [])
    (h : ∀ piece ∈ pieces, separator ∉ piece) :
    splitAt separator (joinWith [separator] pieces) = pieces := by
  induction pieces with
  | nil => exact absurd rfl hne
  | cons piece rest ih =>
      have hpiece := splitAt_of_not_mem (h piece List.mem_cons_self)
      cases rest with
      | nil => simpa [joinWith] using hpiece
      | cons next more =>
          have hrest := ih (by simp) fun other hmem => h other (List.mem_cons_of_mem piece hmem)
          simp only [joinWith, List.append_assoc, List.singleton_append] at hrest ⊢
          rw [splitAt_append_cons, hpiece, hrest]
          rfl

theorem length_consFirst (c : Char) {pieces : List (List Char)} (h : pieces ≠ []) :
    (consFirst c pieces).length = pieces.length := by
  cases pieces with
  | nil => exact absurd rfl h
  | cons piece rest => rfl

theorem length_splitAt (separator : Char) (text : List Char) :
    (splitAt separator text).length = text.count separator + 1 := by
  induction text with
  | nil => rfl
  | cons c rest ih =>
      by_cases hc : c = separator
      · simp [splitAt, hc, ih]
      · simp [splitAt, hc, length_consFirst c (splitAt_ne_nil separator rest), ih]

/-- Pieces without separators, each with one after it, are found again before nothing. -/
theorem splitAt_flatMap_append {separator : Char} {pieces : List (List Char)}
    (h : ∀ piece ∈ pieces, separator ∉ piece) :
    splitAt separator (pieces.flatMap (· ++ [separator])) = pieces ++ [[]] := by
  induction pieces with
  | nil => rfl
  | cons piece rest ih =>
      have hpiece := splitAt_of_not_mem (h piece List.mem_cons_self)
      have hrest := ih fun other hmem => h other (List.mem_cons_of_mem piece hmem)
      rw [List.flatMap_cons, List.append_assoc, List.singleton_append, splitAt_append_cons,
        hpiece, hrest]
      rfl

/-! ## Lines -/

theorem consFirst_ne_nil (c : Char) (pieces : List (List Char)) : consFirst c pieces ≠ [] := by
  cases pieces <;> simp [consFirst]

theorem lines_eq_nil_iff {text : List Char} : lines text = [] ↔ text = [] := by
  constructor
  · intro h
    unfold lines at h
    split at h
    · rfl
    · cases h
    · split at h
      · cases h
      · exact absurd h (consFirst_ne_nil _ _)
  · rintro rfl
    rfl

theorem not_mem_of_mem_consFirst {c separator : Char} {pieces : List (List Char)}
    (hc : c ≠ separator) (h : ∀ piece ∈ pieces, separator ∉ piece) :
    ∀ piece ∈ consFirst c pieces, separator ∉ piece := by
  cases pieces with
  | nil => simpa [consFirst] using hc.symm
  | cons first rest =>
      obtain ⟨hfirst, hrest⟩ := List.forall_mem_cons.1 h
      show ∀ piece ∈ (c :: first) :: rest, separator ∉ piece
      refine List.forall_mem_cons.2 ⟨?_, hrest⟩
      rw [List.mem_cons, not_or]
      exact ⟨hc.symm, hfirst⟩

/-- No line holds a break. -/
theorem not_mem_of_mem_lines (text : List Char) : ∀ line ∈ lines text, '\n' ∉ line := by
  fun_induction lines text with
  | case1 => simp
  | case2 rest ih => simpa using ih
  | case3 rest _ ih => simpa using ih
  | case4 c rest _ hc ih => exact not_mem_of_mem_consFirst hc ih

/-! ## One piece of a joined text -/

theorem joinWith_concat (separator : List Char) {pieces : List (List Char)} (h : pieces ≠ [])
    (piece : List Char) :
    joinWith separator (pieces ++ [piece]) = joinWith separator pieces ++ separator ++ piece := by
  induction pieces with
  | nil => exact absurd rfl h
  | cons first rest ih =>
      cases rest with
      | nil => rfl
      | cons next more =>
          have hrest := ih (by simp)
          simp only [List.cons_append, joinWith, List.append_assoc] at hrest ⊢
          rw [hrest]

/-- What a joined text has before one of its pieces. -/
def leading (separator : Char) (pieces : List (List Char)) (index : Nat) : List Char :=
  (pieces.take index).flatMap (· ++ [separator])

@[simp] theorem leading_zero (separator : Char) (pieces : List (List Char)) :
    leading separator pieces 0 = [] :=
  rfl

@[simp] theorem leading_cons_succ (separator : Char) (piece : List Char)
    (rest : List (List Char)) (index : Nat) :
    leading separator (piece :: rest) (index + 1) =
      piece ++ separator :: leading separator rest index := by
  simp [leading]

theorem leading_succ {separator : Char} {pieces : List (List Char)} {index : Nat}
    {piece : List Char} (h : pieces[index]? = some piece) :
    leading separator pieces (index + 1) =
      leading separator pieces index ++ piece ++ [separator] := by
  simp [leading, List.take_add_one, h]

theorem joinWith_eq_leading_append (separator : Char) {pieces : List (List Char)} {index : Nat}
    (h : index < pieces.length) :
    joinWith [separator] pieces =
      leading separator pieces index ++ joinWith [separator] (pieces.drop index) := by
  induction pieces generalizing index with
  | nil => simp at h
  | cons piece rest ih =>
      cases index with
      | zero => simp
      | succ index =>
          have hlt : index < rest.length := by simpa using h
          have hrest := ih hlt
          cases rest with
          | nil => simp at hlt
          | cons next more => simp [joinWith, hrest]

end Text

end ScopedCheck

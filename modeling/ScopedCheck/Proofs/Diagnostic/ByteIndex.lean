import Mathlib.Order.Bounds.Defs
import ScopedCheck.Proofs.Diagnostic.WordBlock
import ScopedCheck.Proofs.Text.Columns

/-!
# Columns as byte indices

The byte index of a column is that of the first character boundary at it or past it.
Columns and byte indices are in the same order, a column at a boundary is turned into
that boundary, and one between the halves of a surrogate pair into the boundary behind
the pair.
-/

namespace ScopedCheck

namespace Text

/-- Whether a byte index is a character boundary with so many units before it. -/
def Reaches (line : List Char) (column index : Nat) : Prop :=
  ∃ before, before <+: line ∧ bytes before = index ∧ column ≤ units before

theorem exists_reaches_iff {line : List Char} {column : Nat} :
    (∃ index, Reaches line column index) ↔ column ≤ units line := by
  constructor
  · rintro ⟨_, before, ⟨after, rfl⟩, -, hbefore⟩
    rw [units_append]
    exact Nat.le_trans hbefore (Nat.le_add_right _ _)
  · exact fun h => ⟨_, line, List.prefix_refl line, rfl, h⟩

theorem isLeast_byteIndex {line : List Char} {column : Nat} (h : column ≤ units line) :
    IsLeast {index | Reaches line column index} (byteIndex line column) := by
  constructor
  · exact ⟨_, List.take_prefix _ _, rfl, (boundary_le_iff h).1 (Nat.le_refl _)⟩
  · rintro index ⟨before, ⟨after, rfl⟩, rfl, hbefore⟩
    have hcount : boundary (before ++ after) column ≤ before.length :=
      (boundary_le_iff h).2 (by rwa [List.take_left])
    have hbytes := monotone_bytes_take (before ++ after) hcount
    dsimp only at hbytes
    rwa [List.take_left] at hbytes

theorem byteIndex_of_units_le {line : List Char} {column : Nat} (h : units line ≤ column) :
    byteIndex line column = bytes line := by
  rw [byteIndex, boundary_of_units_le h, List.take_length]

theorem monotone_boundary (line : List Char) : Monotone (boundary line) := by
  intro column limit hle
  by_cases hlimit : limit ≤ units line
  · rw [boundary_le_iff (Nat.le_trans hle hlimit)]
    exact Nat.le_trans hle ((boundary_le_iff hlimit).1 (Nat.le_refl _))
  · rw [boundary_of_units_le (Nat.le_of_not_le hlimit)]
    exact boundary_le_length line column

theorem monotone_byteIndex (line : List Char) : Monotone (byteIndex line) :=
  (monotone_bytes_take line).comp (monotone_boundary line)

/-- The columns of a character, its first one aside, are turned into the boundary behind it. -/
theorem byteIndex_of_mem_character {before after : List Char} {c : Char} {column : Nat}
    (hstart : units before < column) (hend : column ≤ units (before ++ [c])) :
    byteIndex (before ++ [c] ++ after) column = bytes (before ++ [c]) := by
  have hline : column ≤ units (before ++ [c] ++ after) := by
    rw [units_append]
    exact Nat.le_trans hend (Nat.le_add_right _ _)
  have hle : boundary (before ++ [c] ++ after) column ≤ (before ++ [c]).length :=
    (boundary_le_iff hline).2 (by rwa [List.take_left])
  have hlt : before.length < boundary (before ++ [c] ++ after) column := by
    refine Nat.lt_of_not_le fun hshort => ?_
    rw [boundary_le_iff hline, List.append_assoc, List.take_left] at hshort
    omega
  have hboundary : boundary (before ++ [c] ++ after) column = (before ++ [c]).length := by
    rw [List.length_append, List.length_singleton] at hle ⊢
    omega
  rw [byteIndex, hboundary, List.take_left]

theorem byteIndex_units {before line : List Char} (h : before <+: line) :
    byteIndex line (units before) = bytes before := by
  obtain ⟨after, rfl⟩ := h
  obtain rfl | ⟨front, c, rfl⟩ := List.eq_nil_or_concat' before
  · rw [byteIndex, units, boundary_zero]
    rfl
  · have hpos := charUnits_pos c
    refine byteIndex_of_mem_character ?_ (Nat.le_refl _)
    rw [units_append, units, units]
    omega

/--
The byte index of a column is the least character boundary with so many units before it.

Past the last column there is none, and the index is that of the end of the line.
-/
theorem byteIndex_rounds_up {line : List Char} (h : units line ≤ maxOffset) :
    (∀ column, Word.byteIndex line column = .ok (byteIndex line column) ∧
      ((∃ index, Reaches line column index) →
        IsLeast {index | Reaches line column index} (byteIndex line column)) ∧
      ((¬∃ index, Reaches line column index) → byteIndex line column = bytes line)) ∧
    Monotone (byteIndex line) ∧
    (∀ before, before <+: line → byteIndex line (units before) = bytes before) ∧
    ∀ before c column, before ++ [c] <+: line → units before < column →
      column < units (before ++ [c]) → byteIndex line column = bytes (before ++ [c]) := by
  refine ⟨fun column => ⟨Word.byteIndex_eq h column, ?_, ?_⟩, monotone_byteIndex line,
    fun before => byteIndex_units, ?_⟩
  · rw [exists_reaches_iff]
    exact isLeast_byteIndex
  · rw [exists_reaches_iff]
    exact fun hpast => byteIndex_of_units_le (Nat.le_of_not_le hpast)
  · rintro before c column ⟨after, rfl⟩ hstart hend
    exact byteIndex_of_mem_character hstart (Nat.le_of_lt hend)

/-- A pair at the end of a line is passed from its inside, from its end and from past it. -/
theorem byteIndex_rounds_up_pair :
    let line := ['é', '𝒳']
    units line ≤ maxOffset ∧ byteIndex line 1 = 2 ∧ Word.byteIndex line 2 = .ok 6 ∧
      IsLeast {index | Reaches line 2 index} 6 ∧ byteIndex line 2 ≤ byteIndex line 3 ∧
      byteIndex line 4 = 6 := by
  intro line
  have hunits : units line ≤ maxOffset := by decide
  obtain ⟨hcolumns, hmonotone, hprefix, hinside⟩ := byteIndex_rounds_up hunits
  have hpair : byteIndex line 2 = 6 :=
    hinside ['é'] '𝒳' 2 (List.prefix_refl line) (by decide) (by decide)
  obtain ⟨hword, hleast, -⟩ := hcolumns 2
  obtain ⟨-, -, hend⟩ := hcolumns 4
  rw [hpair] at hword
  rw [exists_reaches_iff, hpair] at hleast
  rw [exists_reaches_iff] at hend
  exact ⟨hunits, hprefix ['é'] ⟨['𝒳'], rfl⟩, hword, hleast (by decide),
    hmonotone (by decide), hend (by decide)⟩

end Text

end ScopedCheck

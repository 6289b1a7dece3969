import ScopedCheck.Text.Units

/-!
# Characters and their columns

A boundary in a line counts the characters that start before a column.  Two
boundaries have the characters between them that start at the one column or
after it and before the other one.
-/

namespace ScopedCheck

namespace Text

/-- The characters of a line, each with the UTF-16 column at which it starts. -/
def placed (column : Nat) : List Char → List (Nat × Char)
  | [] => []
  | c :: rest => (column, c) :: placed (column + charUnits c) rest

theorem le_of_mem_placed {line : List Char} {column : Nat} {place : Nat × Char}
    (h : place ∈ placed column line) : column ≤ place.1 := by
  induction line generalizing column with
  | nil => exact absurd h List.not_mem_nil
  | cons c rest ih =>
      rcases List.mem_cons.1 h with rfl | hrest
      · exact Nat.le_refl _
      · exact Nat.le_trans (Nat.le_add_right _ _) (ih hrest)

/-- The characters before a boundary are those that start before its column. -/
theorem map_snd_filter_placed (line : List Char) (column limit : Nat) :
    ((placed column line).filter (·.1 < limit)).map (·.2) =
      line.take (boundary line (limit - column)) := by
  induction line generalizing column with
  | nil => rfl
  | cons c rest ih =>
      cases hdistance : limit - column with
      | zero =>
          have hnone : ∀ place ∈ placed column (c :: rest), ¬decide (place.1 < limit) = true := by
            intro place hmem
            have hle := le_of_mem_placed hmem
            simp only [decide_eq_true_eq]
            omega
          rw [List.filter_eq_nil_iff.2 hnone]
          rfl
      | succ distance =>
          have hrest : limit - (column + charUnits c) = distance + 1 - charUnits c := by omega
          have hfirst : column < limit := by omega
          rw [placed, List.filter_cons_of_pos (by simpa using hfirst), List.map_cons, ih, hrest,
            boundary, Nat.add_comm 1, List.take_succ_cons]

theorem countP_placed_lt (line : List Char) (column : Nat) :
    (placed 0 line).countP (·.1 < column) = boundary line column := by
  have hlength := congrArg List.length (map_snd_filter_placed line 0 column)
  rw [List.length_map, List.length_take, Nat.sub_zero,
    Nat.min_eq_left (boundary_le_length line column)] at hlength
  rw [List.countP_eq_length_filter, hlength]

theorem countP_lt_eq_add (places : List (Nat × Char)) {start stop : Nat} (h : start ≤ stop) :
    places.countP (·.1 < stop) =
      places.countP (·.1 < start) + places.countP fun place => start ≤ place.1 ∧ place.1 < stop := by
  induction places with
  | nil => rfl
  | cons place rest ih =>
      simp only [List.countP_cons, ih, decide_eq_true_eq]
      split <;> split <;> split <;> omega

/-- Two boundaries are as far apart as there are characters that start between their columns. -/
theorem boundary_sub_boundary (line : List Char) (start stop : Nat) :
    boundary line stop - boundary line start =
      (placed 0 line).countP fun place => start ≤ place.1 ∧ place.1 < stop := by
  rw [← countP_placed_lt, ← countP_placed_lt]
  rcases Nat.le_total start stop with hle | hge
  · rw [countP_lt_eq_add _ hle, Nat.add_sub_cancel_left]
  · have hnone : ((placed 0 line).countP fun place => start ≤ place.1 ∧ place.1 < stop) = 0 := by
      rw [List.countP_eq_zero]
      intro place _
      simp only [decide_eq_true_eq]
      omega
    have hmono : (placed 0 line).countP (·.1 < stop) ≤ (placed 0 line).countP (·.1 < start) := by
      apply List.countP_mono_left
      intro place _ hlt
      simp only [decide_eq_true_eq] at hlt ⊢
      omega
    rw [hnone]
    exact Nat.sub_eq_zero_of_le hmono

theorem boundary_of_units_le {line : List Char} {column : Nat} (h : units line ≤ column) :
    boundary line column = line.length := by
  induction line generalizing column with
  | nil => rfl
  | cons c rest ih =>
      have hpos := charUnits_pos c
      rw [units] at h
      obtain ⟨more, rfl⟩ : ∃ more, column = more + 1 := ⟨column - 1, by omega⟩
      rw [boundary, ih (by omega), List.length_cons, Nat.add_comm]

/-- A column that a line has is reached by as many characters as start before it, and no fewer. -/
theorem boundary_le_iff {line : List Char} {column count : Nat} (h : column ≤ units line) :
    boundary line column ≤ count ↔ column ≤ units (line.take count) := by
  induction line generalizing column count with
  | nil =>
      obtain rfl : column = 0 := Nat.le_zero.1 h
      simp
  | cons c rest ih =>
      cases column with
      | zero => simp
      | succ column =>
          cases count with
          | zero => simp [boundary, units]
          | succ count =>
              have hrest := @ih (column + 1 - charUnits c) count (by rw [units] at h; omega)
              rw [boundary, List.take_succ_cons, units]
              omega

end Text

end ScopedCheck

import Mathlib.Data.Nat.Count
import ScopedCheck.Text.Units

/-!
# Characters at offsets

An offset at which a character starts splits the text there.  Line breaks and
the pairs `\r\n` are found and counted by the offsets at which they start.
-/

namespace ScopedCheck

namespace Text

@[simp] theorem charUnits_break : charUnits '\n' = 1 :=
  rfl

@[simp] theorem charUnits_return : charUnits '\r' = 1 :=
  rfl

@[simp] theorem units_break : units ['\n'] = 1 :=
  rfl

@[simp] theorem units_return : units ['\r'] = 1 :=
  rfl

/-- The character that starts at an offset. -/
def charAt? : List Char → Nat → Option Char
  | [], _ => none
  | c :: _, 0 => some c
  | c :: rest, offset + 1 =>
      if charUnits c ≤ offset + 1 then charAt? rest (offset + 1 - charUnits c) else none

theorem charAt?_append_left {a : List Char} (b : List Char) {offset : Nat}
    (h : offset < units a) : charAt? (a ++ b) offset = charAt? a offset := by
  induction a generalizing offset with
  | nil => simp [units] at h
  | cons c rest ih =>
      cases offset with
      | zero => rfl
      | succ offset =>
          simp only [List.cons_append, charAt?]
          split
          · apply ih
            simp only [units] at h
            omega
          · rfl

theorem charAt?_append_right (a b : List Char) (offset : Nat) :
    charAt? (a ++ b) (units a + offset) = charAt? b offset := by
  induction a with
  | nil => simp [units]
  | cons c rest ih =>
      have hpos := charUnits_pos c
      have hsucc : units (c :: rest) + offset =
          (charUnits c + units rest + offset - 1) + 1 := by
        simp only [units]
        omega
      rw [hsucc, List.cons_append, charAt?, if_pos (by omega)]
      rw [show charUnits c + units rest + offset - 1 + 1 - charUnits c = units rest + offset by
        omega]
      exact ih

theorem charAt?_eq_some_iff {text : List Char} {offset : Nat} {c : Char} :
    charAt? text offset = some c ↔
      ∃ before after, text = before ++ c :: after ∧ units before = offset := by
  constructor
  · intro h
    induction text generalizing offset with
    | nil => simp [charAt?] at h
    | cons d rest ih =>
        cases offset with
        | zero =>
            obtain rfl := Option.some.inj h
            exact ⟨[], rest, rfl, rfl⟩
        | succ offset =>
            simp only [charAt?] at h
            split at h
            · obtain ⟨before, after, rfl, hbefore⟩ := ih h
              refine ⟨d :: before, after, rfl, ?_⟩
              simp only [units]
              omega
            · cases h
  · rintro ⟨before, after, rfl, rfl⟩
    exact charAt?_append_right before (c :: after) 0

theorem mem_of_charAt? {text : List Char} {offset : Nat} {c : Char}
    (h : charAt? text offset = some c) : c ∈ text := by
  obtain ⟨before, after, rfl, _⟩ := charAt?_eq_some_iff.1 h
  simp

theorem lt_units_of_charAt? {text : List Char} {offset : Nat} {c : Char}
    (h : charAt? text offset = some c) : offset < units text := by
  obtain ⟨before, after, rfl, rfl⟩ := charAt?_eq_some_iff.1 h
  have hpos := charUnits_pos c
  simp only [units_append, units]
  omega

theorem getLast?_of_charAt? {text : List Char} {offset : Nat} {c : Char}
    (h : charAt? text offset = some c) (hend : offset + charUnits c = units text) :
    text.getLast? = some c := by
  obtain ⟨before, after, rfl, rfl⟩ := charAt?_eq_some_iff.1 h
  cases after with
  | nil => simp
  | cons d rest =>
      have hpos := charUnits_pos d
      simp only [units_append, units] at hend
      omega

/-! ## Line breaks -/

def breaksBefore (text : List Char) (offset : Nat) : Nat :=
  Nat.count (fun place => charAt? text place = some '\n') offset

theorem breaksBefore_add (text : List Char) (a b : Nat) :
    breaksBefore text (a + b) =
      breaksBefore text a + Nat.count (fun place => charAt? text (a + place) = some '\n') b :=
  Nat.count_add _ a b

theorem breaksBefore_succ (text : List Char) (offset : Nat) :
    breaksBefore text (offset + 1) =
      breaksBefore text offset + if charAt? text offset = some '\n' then 1 else 0 :=
  Nat.count_succ _ offset

theorem breaksBefore_append (a b : List Char) (offset : Nat) :
    breaksBefore (a ++ b) (units a + offset) =
      breaksBefore a (units a) + breaksBefore b offset := by
  rw [breaksBefore_add]
  congr 1
  -- The two counts agree only below the end of `a`, so they are compared as finite sets.
  · simp only [breaksBefore, Nat.count_eq_card_filter_range]
    congr 1
    refine Finset.filter_congr ?_
    intro place hplace
    rw [charAt?_append_left b (Finset.mem_range.1 hplace)]
  · simp only [charAt?_append_right, breaksBefore]

theorem breaksBefore_of_not_mem {text : List Char} (h : '\n' ∉ text) (offset : Nat) :
    breaksBefore text offset = 0 := by
  apply Nat.count_iff_forall_not.2
  intro place _ hplace
  exact h (mem_of_charAt? hplace)

/-- A line without breaks adds the break that ends it. -/
theorem breaksBefore_append_break {line : List Char} (h : '\n' ∉ line) (rest : List Char)
    (offset : Nat) :
    breaksBefore (line ++ '\n' :: rest) (units line + (1 + offset)) =
      1 + breaksBefore rest offset := by
  have hbreak := breaksBefore_append ['\n'] rest offset
  have hone : breaksBefore ['\n'] 1 = 1 := by decide
  rw [units_break, hone, List.singleton_append] at hbreak
  rw [breaksBefore_append, breaksBefore_of_not_mem h, hbreak, Nat.zero_add]

/-- Whether `\r\n` starts at an offset. -/
def PairAt (text : List Char) (offset : Nat) : Prop :=
  charAt? text offset = some '\r' ∧ charAt? text (offset + 1) = some '\n'

instance (text : List Char) (offset : Nat) : Decidable (PairAt text offset) :=
  inferInstanceAs (Decidable (_ ∧ _))

/-- Whether an offset is between a `\r` and the `\n` after it. -/
def InsidePair (text : List Char) (offset : Nat) : Prop :=
  0 < offset ∧ PairAt text (offset - 1)

instance (text : List Char) (offset : Nat) : Decidable (InsidePair text offset) :=
  inferInstanceAs (Decidable (_ ∧ _))

theorem InsidePair.charAt? {text : List Char} {offset : Nat} (h : InsidePair text offset) :
    charAt? text offset = some '\n' := by
  have hnext := h.2.2
  rwa [Nat.sub_add_cancel h.1] at hnext

end Text

end ScopedCheck

import ScopedCheck.Proofs.Outcome
import ScopedCheck.Proofs.Text.Slice
import ScopedCheck.Source.Span

/-!
# Computing with words

Offsets, columns and line numbers are words of 32 bits.  Here every operation on
them is checked: it stops where a word would not hold the result, and so do a look
at a place that a list does not have and a cut that a text does not allow.  A
search by halving stays inside its list.
-/

namespace ScopedCheck

/-- What a computation with words stops for. -/
inductive Trap where
  /-- A number is too great for a word. -/
  | overflow
  /-- A difference is below zero. -/
  | underflow
  /-- A list has no such place. -/
  | index
  /-- A text has no such part, or no character begins where the part does or ends. -/
  | slice
  deriving DecidableEq, Repr

namespace Word

variable {α : Type}

def ofNat (n : Nat) : Except Trap Nat :=
  if n ≤ maxOffset then .ok n else .error .overflow

def add (a b : Nat) : Except Trap Nat :=
  ofNat (a + b)

def sub (a b : Nat) : Except Trap Nat :=
  if b ≤ a then .ok (a - b) else .error .underflow

/-- A sum that stays at the greatest word instead of passing it. -/
def addSaturating (a b : Nat) : Nat :=
  min (a + b) maxOffset

def get (xs : List α) (place : Nat) : Except Trap α :=
  match xs[place]? with
  | some x => .ok x
  | none => .error .index

def slice (text : List Char) (start stop : Nat) : Except Trap (List Char) :=
  match Text.sliceBytes? text start stop with
  | some part => .ok part
  | none => .error .slice

theorem ofNat_of_le {n : Nat} (h : n ≤ maxOffset) : ofNat n = .ok n :=
  if_pos h

theorem add_of_le {a b : Nat} (h : a + b ≤ maxOffset) : add a b = .ok (a + b) :=
  if_pos h

theorem sub_of_le {a b : Nat} (h : b ≤ a) : sub a b = .ok (a - b) :=
  if_pos h

theorem get_of_getElem? {xs : List α} {place : Nat} {x : α} (h : xs[place]? = some x) :
    get xs place = .ok x := by
  rw [get, h]

theorem slice_of_sliceBytes? {text part : List Char} {start stop : Nat}
    (h : Text.sliceBytes? text start stop = some part) : slice text start stop = .ok part := by
  rw [slice, h]

/-! ## Search by halving -/

/-- Where a search ends: at a value that is there, or before the next greater one. -/
inductive Found where
  | at (place : Nat)
  | before (place : Nat)
  deriving DecidableEq, Repr

/-- The last place whose value is not greater; the first place if there is none. -/
def Found.floor : Found → Nat
  | .at place => place
  | .before place => place - 1

/-- Searches a list of increasing numbers between two places. -/
def search (xs : List Nat) (x left right : Nat) : Except Trap Found :=
  if h : left < right then do
    let middle := left + (right - left) / 2
    let y ← get xs middle
    if y < x then search xs x (middle + 1) right
    else if x < y then search xs x left middle
    else return .at middle
  else return .before left
termination_by right - left

/-- How many numbers at the front of a list of increasing ones are not greater than a given one. -/
structure Floor (xs : List Nat) (x count : Nat) : Prop where
  le_length : count ≤ xs.length
  le_of_lt : ∀ place < count, ∀ y ∈ xs[place]?, y ≤ x
  lt_of_ge : ∀ place, count ≤ place → ∀ y ∈ xs[place]?, x < y

theorem Floor.length_takeWhile {xs : List Nat} {x count : Nat} (h : Floor xs x count) :
    (xs.takeWhile (· ≤ x)).length = count := by
  induction xs generalizing count with
  | nil => exact (Nat.le_zero.1 h.le_length).symm
  | cons y rest ih =>
      cases count with
      | zero =>
          have hy : x < y := h.lt_of_ge 0 (Nat.le_refl 0) y rfl
          rw [List.takeWhile_cons_of_neg (by simpa using hy), List.length_nil]
      | succ count =>
          have hy : y ≤ x := h.le_of_lt 0 (Nat.succ_pos count) y rfl
          have hrest : Floor rest x count :=
            ⟨Nat.le_of_succ_le_succ h.le_length,
              fun place hplace => h.le_of_lt (place + 1) (Nat.succ_lt_succ hplace),
              fun place hplace => h.lt_of_ge (place + 1) (Nat.succ_le_succ hplace)⟩
          rw [List.takeWhile_cons_of_pos (by simpa using hy), List.length_cons, ih hrest]

section

variable {xs : List Nat} {x y z left middle right : Nat}

theorem lt_of_pairwise (hsorted : xs.Pairwise (· < ·)) (hlt : left < right)
    (hy : xs[left]? = some y) (hz : xs[right]? = some z) : y < z := by
  obtain ⟨hleft, rfl⟩ := List.getElem?_eq_some_iff.1 hy
  obtain ⟨hright, rfl⟩ := List.getElem?_eq_some_iff.1 hz
  exact List.pairwise_iff_getElem.1 hsorted left right hleft hright hlt

theorem le_of_pairwise (hsorted : xs.Pairwise (· < ·)) (hle : left ≤ right)
    (hy : xs[left]? = some y) (hz : xs[right]? = some z) : y ≤ z := by
  obtain rfl | hlt := Nat.eq_or_lt_of_le hle
  · exact Nat.le_of_eq (Option.some.inj (hy.symm.trans hz))
  · exact Nat.le_of_lt (lt_of_pairwise hsorted hlt hy hz)

theorem floor_of_getElem? (hsorted : xs.Pairwise (· < ·)) (hx : xs[middle]? = some x) :
    Floor xs x (middle + 1) where
  le_length := (List.getElem?_eq_some_iff.1 hx).1
  le_of_lt := fun _ hbefore _ hy => le_of_pairwise hsorted (Nat.le_of_lt_succ hbefore) hy hx
  lt_of_ge := fun _ hafter _ hy => lt_of_pairwise hsorted hafter hx hy

/-- Two places with what is smaller on their left and what is greater on their right. -/
structure Between (xs : List Nat) (x left right : Nat) : Prop where
  le : left ≤ right
  le_length : right ≤ xs.length
  below : ∀ place < left, ∀ y ∈ xs[place]?, y < x
  above : ∀ place, right ≤ place → ∀ y ∈ xs[place]?, x < y

namespace Between

theorem whole (xs : List Nat) (x : Nat) : Between xs x 0 xs.length where
  le := Nat.zero_le _
  le_length := Nat.le_refl _
  below := fun place hplace => absurd hplace (Nat.not_lt_zero place)
  above := fun _ hplace _ hy => by
    rw [List.getElem?_eq_none hplace] at hy
    cases hy

theorem floor (h : Between xs x left left) : Floor xs x left where
  le_length := h.le_length
  le_of_lt := fun place hplace y hy => Nat.le_of_lt (h.below place hplace y hy)
  lt_of_ge := h.above

theorem succ_middle (h : Between xs x left right) (hsorted : xs.Pairwise (· < ·))
    (hmiddle : middle < right) (hy : xs[middle]? = some y) (hlt : y < x) :
    Between xs x (middle + 1) right where
  le := hmiddle
  le_length := h.le_length
  below := fun _ hbefore _ hz =>
    Nat.lt_of_le_of_lt (le_of_pairwise hsorted (Nat.le_of_lt_succ hbefore) hz hy) hlt
  above := h.above

theorem to_middle (h : Between xs x left right) (hsorted : xs.Pairwise (· < ·))
    (hmiddle : left ≤ middle) (hy : xs[middle]? = some y) (hlt : x < y) :
    Between xs x left middle where
  le := hmiddle
  le_length := Nat.le_of_lt (List.getElem?_eq_some_iff.1 hy).1
  below := h.below
  above := fun _ hafter _ hz => Nat.lt_of_lt_of_le hlt (le_of_pairwise hsorted hafter hy hz)

/-- Each step of a search halves what is between its places, and stays inside the list. -/
theorem exists_search (h : Between xs x left right) (hsorted : xs.Pairwise (· < ·)) :
    ∃ found count, search xs x left right = .ok found ∧ Floor xs x count ∧
      found.floor = count - 1 := by
  induction hsize : right - left using Nat.strongRecOn generalizing left right with
  | ind size ih =>
      have hle := h.le
      have hlength := h.le_length
      rw [search]
      by_cases hlt : left < right
      · obtain ⟨middle, hmiddle⟩ : ∃ middle, left + (right - left) / 2 = middle := ⟨_, rfl⟩
        obtain ⟨y, hy⟩ : ∃ y, xs[middle]? = some y :=
          ⟨_, List.getElem?_eq_getElem (show middle < xs.length by omega)⟩
        rw [dif_pos hlt, hmiddle]
        dsimp only
        rw [get_of_getElem? hy, ok_bind]
        split
        · rename_i hyx
          exact ih _ (by omega) (h.succ_middle hsorted (by omega) hy hyx) rfl
        · split
          · rename_i hxy
            exact ih _ (by omega) (h.to_middle hsorted (by omega) hy hxy) rfl
          · obtain rfl : y = x := by omega
            exact ⟨.at middle, middle + 1, rfl, floor_of_getElem? hsorted hy, rfl⟩
      · obtain rfl : left = right := by omega
        rw [dif_neg hlt]
        exact ⟨.before left, left, rfl, h.floor, rfl⟩

end Between

end

/-- A search of a whole list ends, and counts what is not greater. -/
theorem exists_search_whole {xs : List Nat} (h : xs.Pairwise (· < ·)) (x : Nat) :
    ∃ found, search xs x 0 xs.length = .ok found ∧
      found.floor = (xs.takeWhile (· ≤ x)).length - 1 := by
  obtain ⟨found, count, hsearch, hfloor, hfound⟩ := (Between.whole xs x).exists_search h
  exact ⟨found, hsearch, by rw [hfound, hfloor.length_takeWhile]⟩

end Word

end ScopedCheck

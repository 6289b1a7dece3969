/-!
# Characters measured in UTF-16 units and in UTF-8 bytes

Offsets and columns count UTF-16 code units, slices count bytes.  Both are
measures on a list of characters; `boundary` is the bridge from a column to a
place between two characters.
-/

namespace ScopedCheck

namespace Text

/-- UTF-16 code units of one character: two beyond the basic plane, else one. -/
def charUnits (c : Char) : Nat :=
  if 0x10000 ≤ c.toNat then 2 else 1

def units : List Char → Nat
  | [] => 0
  | c :: rest => charUnits c + units rest

def bytes : List Char → Nat
  | [] => 0
  | c :: rest => c.utf8Size + bytes rest

/--
Number of characters that start before column `column`.

The columns are UTF-16 units from the start of the line; a column inside a
surrogate pair counts the pair as started.
-/
def boundary : List Char → Nat → Nat
  | [], _ => 0
  | _ :: _, 0 => 0
  | c :: rest, column + 1 => 1 + boundary rest (column + 1 - charUnits c)

/-- Byte index of the first character boundary at or past `column`. -/
def byteIndex (line : List Char) (column : Nat) : Nat :=
  bytes (line.take (boundary line column))

/-- Drops exactly `count` bytes; none when that is not a character boundary. -/
def dropBytes? : Nat → List Char → Option (List Char)
  | 0, text => some text
  | _ + 1, [] => none
  | count + 1, c :: rest =>
      if c.utf8Size ≤ count + 1 then dropBytes? (count + 1 - c.utf8Size) rest else none

/-- Keeps exactly `count` bytes; none when that is not a character boundary. -/
def takeBytes? : Nat → List Char → Option (List Char)
  | 0, _ => some []
  | _ + 1, [] => none
  | count + 1, c :: rest =>
      if c.utf8Size ≤ count + 1 then
        (takeBytes? (count + 1 - c.utf8Size) rest).map (c :: ·)
      else none

/-- The text between two byte indices, when both are character boundaries. -/
def sliceBytes? (text : List Char) (start stop : Nat) : Option (List Char) :=
  if start ≤ stop then (dropBytes? start text).bind (takeBytes? (stop - start)) else none

theorem charUnits_pos (c : Char) : 0 < charUnits c := by
  unfold charUnits
  split <;> omega

@[simp] theorem units_append (a b : List Char) : units (a ++ b) = units a + units b := by
  induction a with
  | nil => simp [units]
  | cons c rest ih => simp [units, ih, Nat.add_assoc]

@[simp] theorem bytes_append (a b : List Char) : bytes (a ++ b) = bytes a + bytes b := by
  induction a with
  | nil => simp [bytes]
  | cons c rest ih => simp [bytes, ih, Nat.add_assoc]

@[simp] theorem boundary_zero (line : List Char) : boundary line 0 = 0 := by
  cases line <;> rfl

theorem boundary_le_length (line : List Char) (column : Nat) :
    boundary line column ≤ line.length := by
  induction line generalizing column with
  | nil => simp [boundary]
  | cons c rest ih =>
      cases column with
      | zero => simp [boundary]
      | succ column =>
          have h := ih (column + 1 - charUnits c)
          simp [boundary]
          omega

end Text

end ScopedCheck

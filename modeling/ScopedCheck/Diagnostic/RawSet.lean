import ScopedCheck.Diagnostic.Message
import ScopedCheck.Path.Normal

/-!
# Raw diagnostics

What the compiler reports, listed by file.  Files are told apart by their
components; each keeps the place and the spelling of its first mention.
-/

namespace ScopedCheck

structure RawEntry where
  /-- The file that owns it, when the compiler says so. -/
  file : Option Path
  /-- Start offset in UTF-16 units. -/
  start : Nat
  /-- Length in UTF-16 units. -/
  length : Nat
  message : Message
  /-- Number of the error, when known. -/
  code : Option Nat
  deriving Repr, Inhabited

/-- Entries by file, in order of first mention. -/
structure RawSet where
  files : List (Path × List RawEntry)
  deriving Repr, Inhabited

namespace RawSet

def empty : RawSet :=
  ⟨[]⟩

/-- Changes the entries of a file; a new file starts without entries and comes last. -/
def alter (path : Path) (change : List RawEntry → List RawEntry) :
    List (Path × List RawEntry) → List (Path × List RawEntry)
  | [] => [(path, change [])]
  | (key, entries) :: rest =>
      if key.same path then (key, change entries) :: rest
      else (key, entries) :: alter path change rest

def extend (raw : RawSet) (path : Path) (entries : List RawEntry) : RawSet :=
  ⟨alter path (· ++ entries) raw.files⟩

def replace (raw : RawSet) (path : Path) (entries : List RawEntry) : RawSet :=
  ⟨alter path (fun _ => entries) raw.files⟩

def get? (raw : RawSet) (path : Path) : Option (List RawEntry) :=
  (raw.files.find? (·.1.same path)).map (·.2)

def entryCount (raw : RawSet) : Nat :=
  (raw.files.flatMap (·.2)).length

/-- Whether no file has an entry. -/
def isEmpty (raw : RawSet) : Bool :=
  raw.entryCount == 0

/-! ## Lookup after a change -/

theorem find?_alter_same (path : Path) (change : List RawEntry → List RawEntry)
    (files : List (Path × List RawEntry)) :
    ((alter path change files).find? (·.1.same path)).map (·.2) =
      some (change (((files.find? (·.1.same path)).map (·.2)).getD [])) := by
  induction files with
  | nil => simp [alter]
  | cons head rest ih =>
      obtain ⟨key, entries⟩ := head
      by_cases h : key.same path = true
      · simp [alter, h]
      · simp [alter, h, ih]

theorem get?_extend_same (raw : RawSet) (path : Path) (entries : List RawEntry) :
    (raw.extend path entries).get? path = some ((raw.get? path).getD [] ++ entries) :=
  find?_alter_same path (· ++ entries) raw.files

theorem find?_alter_other {path other : Path} (h : other.same path = false)
    (change : List RawEntry → List RawEntry) (files : List (Path × List RawEntry)) :
    (alter path change files).find? (·.1.same other) = files.find? (·.1.same other) := by
  induction files with
  | nil => simp [alter, Path.same_comm path other, h]
  | cons head rest ih =>
      obtain ⟨key, entries⟩ := head
      by_cases hk : key.same path = true
      · have hko : key.same other = false := by
          rw [Bool.eq_false_iff]
          intro hko
          have : other.same path = true := Path.same_trans (Path.same_comm key other ▸ hko) hk
          simp [this] at h
        simp [alter, hk, hko]
      · by_cases hko : key.same other = true
        · simp [alter, hk, hko]
        · simp [alter, hk, hko, ih]

theorem get?_extend_other (raw : RawSet) {path other : Path} (h : other.same path = false)
    (entries : List RawEntry) : (raw.extend path entries).get? other = raw.get? other := by
  simp [get?, extend, find?_alter_other h]

end RawSet

end ScopedCheck

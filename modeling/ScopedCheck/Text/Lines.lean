/-!
# Lines and trailing blanks

A line ends with `\n`, and one `\r` directly before it belongs to the
terminator.  Blanks are the characters with the Unicode property `White_Space`.
-/

namespace ScopedCheck

namespace Text

/-- The Unicode property `White_Space`. -/
def isBlank (c : Char) : Bool :=
  let n := c.toNat
  (0x9 ≤ n && n ≤ 0xD) || n == 0x20 || n == 0x85 || n == 0xA0 || n == 0x1680 ||
    (0x2000 ≤ n && n ≤ 0x200A) || n == 0x2028 || n == 0x2029 || n == 0x202F ||
    n == 0x205F || n == 0x3000

def trimStart (text : List Char) : List Char :=
  text.dropWhile isBlank

def trimEnd (text : List Char) : List Char :=
  (trimStart text.reverse).reverse

def isAllBlank (text : List Char) : Bool :=
  text.all isBlank

def consFirst (c : Char) : List (List Char) → List (List Char)
  | [] => [[c]]
  | line :: rest => (c :: line) :: rest

/--
The lines of a text without their terminators.

A terminator at the end of the text starts no further line, so the empty text
has no lines.
-/
def lines : List Char → List (List Char)
  | [] => []
  | '\r' :: '\n' :: rest => [] :: lines rest
  | c :: rest => if c = '\n' then [] :: lines rest else consFirst c (lines rest)

def joinWith (separator : List Char) : List (List Char) → List Char
  | [] => []
  | [piece] => piece
  | piece :: rest => piece ++ separator ++ joinWith separator rest

/-- Splits at every occurrence of a character; the pieces are one more than those. -/
def splitAt (separator : Char) : List Char → List (List Char)
  | [] => [[]]
  | c :: rest =>
      if c = separator then [] :: splitAt separator rest
      else consFirst c (splitAt separator rest)

theorem splitAt_ne_nil (separator : Char) (text : List Char) : splitAt separator text ≠ [] := by
  cases text with
  | nil => simp [splitAt]
  | cons c rest =>
      simp only [splitAt]
      split
      · simp
      · cases splitAt separator rest <;> simp [consFirst]

/-- No piece holds the separator. -/
theorem not_mem_of_mem_splitAt {separator : Char} {text piece : List Char}
    (h : piece ∈ splitAt separator text) : separator ∉ piece := by
  induction text generalizing piece with
  | nil =>
      simp only [splitAt, List.mem_singleton] at h
      simp [h]
  | cons c rest ih =>
      simp only [splitAt] at h
      split at h
      · rcases List.mem_cons.1 h with rfl | hmem
        · simp
        · exact ih hmem
      · rename_i hc
        cases hs : splitAt separator rest with
        | nil => exact absurd hs (splitAt_ne_nil separator rest)
        | cons first more =>
            rw [hs] at h ih
            rcases List.mem_cons.1 h with rfl | hmem
            · have hfirst := ih (List.mem_cons_self)
              simp [Ne.symm hc, hfirst]
            · exact ih (List.mem_cons_of_mem first hmem)

/-- Splitting and joining at the same character loses nothing. -/
theorem joinWith_splitAt (separator : Char) (text : List Char) :
    joinWith [separator] (splitAt separator text) = text := by
  induction text with
  | nil => rfl
  | cons c rest ih =>
      have hrest := splitAt_ne_nil separator rest
      simp only [splitAt]
      cases hs : splitAt separator rest with
      | nil => exact absurd hs hrest
      | cons piece more =>
          rw [hs] at ih
          split
          · subst c
            simp only [joinWith, List.nil_append]
            simpa using ih
          · cases more with
            | nil => simpa [consFirst, joinWith] using ih
            | cons next more => simpa [consFirst, joinWith] using ih

def padLeft (width : Nat) (text : List Char) : List Char :=
  List.replicate (width - text.length) ' ' ++ text

end Text

end ScopedCheck

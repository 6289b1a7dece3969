import ScopedCheck.Text.Utf8

/-!
# Encoded text is decoded again

The bytes of a character lead a decoder from between two characters to the next
such place, with the character as the only piece.  So what was encoded is decoded
strictly, and nothing in it is malformed.
-/

namespace ScopedCheck

namespace Utf8

/-! ## Later bytes -/

/-- A byte in bounds adds its bits, and the last one finishes the character. -/
theorem step_inside {owed low high bits n : Nat} (hlow : low ≤ n % 0x40 + 0x80)
    (hhigh : n % 0x40 + 0x80 ≤ high) (hbound : high ≤ 0xBF) :
    step (.inside owed (UInt8.ofNat low) (UInt8.ofNat high) bits) (UInt8.ofNat (n % 0x40 + 0x80)) =
      if owed ≤ 1 then ([some (Char.ofNat (bits * 0x40 + n % 0x40))], .start)
      else ([], .inside (owed - 1) (UInt8.ofNat 0x80) (UInt8.ofNat 0xBF)
        (bits * 0x40 + n % 0x40)) := by
  have hbyte : (UInt8.ofNat (n % 0x40 + 0x80)).toNat = n % 0x40 + 0x80 := by
    rw [UInt8.toNat_ofNat']
    omega
  have hfits : UInt8.ofNat low ≤ UInt8.ofNat (n % 0x40 + 0x80) ∧
      UInt8.ofNat (n % 0x40 + 0x80) ≤ UInt8.ofNat high := by
    simp only [UInt8.le_iff_toNat_le, UInt8.toNat_ofNat']
    omega
  have hbits : (n % 0x40 + 0x80) % 0x40 = n % 0x40 := by omega
  simp only [step, hfits.1, hfits.2, decide_true, Bool.and_self, if_true, hbyte, hbits]
  rfl

theorem piecesFrom_last (bits n : Nat) (rest : List UInt8) :
    piecesFrom (.inside 1 (UInt8.ofNat 0x80) (UInt8.ofNat 0xBF) bits)
        (UInt8.ofNat (n % 0x40 + 0x80) :: rest) =
      some (Char.ofNat (bits * 0x40 + n % 0x40)) :: piecesFrom .start rest := by
  have hstep := @step_inside 1 0x80 0xBF bits n (by omega) (by omega) (Nat.le_refl _)
  rw [if_pos (Nat.le_refl 1)] at hstep
  simp only [piecesFrom, hstep, List.cons_append, List.nil_append]

theorem piecesFrom_next {owed low high : Nat} (bits : Nat) {n : Nat} (rest : List UInt8)
    (howed : 1 < owed) (hlow : low ≤ n % 0x40 + 0x80) (hhigh : n % 0x40 + 0x80 ≤ high)
    (hbound : high ≤ 0xBF) :
    piecesFrom (.inside owed (UInt8.ofNat low) (UInt8.ofNat high) bits)
        (UInt8.ofNat (n % 0x40 + 0x80) :: rest) =
      piecesFrom (.inside (owed - 1) (UInt8.ofNat 0x80) (UInt8.ofNat 0xBF)
        (bits * 0x40 + n % 0x40)) rest := by
  have hstep := @step_inside owed low high bits n hlow hhigh hbound
  rw [if_neg (Nat.not_le.2 howed)] at hstep
  simp only [piecesFrom, hstep, List.nil_append]

/-! ## First bytes -/

theorem piecesFrom_opening {b : UInt8} {state : State} (h : opening b = some (state, none))
    (rest : List UInt8) : piecesFrom .start (b :: rest) = piecesFrom state rest := by
  simp only [piecesFrom, step, begin, h, List.nil_append]

theorem opening_one {n : Nat} (h : n < 0x80) :
    opening (UInt8.ofNat n) = some (.start, some (Char.ofNat n)) := by
  have hbyte : n % 0x100 = n := Nat.mod_eq_of_lt (by omega)
  simp [opening, hbyte, h]

theorem opening_two {n : Nat} (hlow : 0xC2 ≤ n) (hhigh : n ≤ 0xDF) :
    opening (UInt8.ofNat n) = some (.inside 1 (UInt8.ofNat 0x80) (UInt8.ofNat 0xBF) (n % 0x20), none) := by
  have hbyte : n % 0x100 = n := Nat.mod_eq_of_lt (by omega)
  have hlarge : ¬n < 0x80 := by omega
  simp [opening, hbyte, hlarge, hlow, hhigh]

/-- Of three bytes the first one bounds the second, so that none is overlong or a surrogate. -/
theorem opening_three {n : Nat} (hlow : 0xE0 ≤ n) (hhigh : n ≤ 0xEF) :
    opening (UInt8.ofNat n) = some (.inside 2 (UInt8.ofNat (if n = 0xE0 then 0xA0 else 0x80))
      (UInt8.ofNat (if n = 0xED then 0x9F else 0xBF)) (n % 0x10), none) := by
  have hbyte : n % 0x100 = n := Nat.mod_eq_of_lt (by omega)
  have hsmall : ¬n < 0x80 := by omega
  have htwo : ¬n ≤ 0xDF := by omega
  by_cases hfirst : n = 0xE0
  · subst hfirst
    rfl
  · by_cases hsurrogate : n = 0xED
    · subst hsurrogate
      rfl
    · have hlater : 0xE1 ≤ n := by omega
      simp [opening, hbyte, hsmall, htwo, hfirst, hsurrogate, hlater, hhigh]

/-- Of four bytes the first one bounds the second, so that none is overlong or too large. -/
theorem opening_four {n : Nat} (hlow : 0xF0 ≤ n) (hhigh : n ≤ 0xF4) :
    opening (UInt8.ofNat n) = some (.inside 3 (UInt8.ofNat (if n = 0xF0 then 0x90 else 0x80))
      (UInt8.ofNat (if n = 0xF4 then 0x8F else 0xBF)) (n % 0x8), none) := by
  obtain rfl | rfl | rfl | rfl | rfl :
      n = 0xF0 ∨ n = 0xF1 ∨ n = 0xF2 ∨ n = 0xF3 ∨ n = 0xF4 := by omega
  all_goals rfl

/-! ## Characters -/

section Characters

variable {n : Nat} (rest : List UInt8)

theorem piecesFrom_one (h : n ≤ 0x7F) :
    piecesFrom .start (UInt8.ofNat n :: rest) = some (Char.ofNat n) :: piecesFrom .start rest := by
  have hopening := opening_one (show n < 0x80 by omega)
  simp only [piecesFrom, step, begin, hopening, List.cons_append, List.nil_append]

theorem piecesFrom_two (hlow : 0x80 ≤ n) (hhigh : n ≤ 0x7FF) :
    piecesFrom .start
        (UInt8.ofNat (n / 64 % 32 + 192) :: UInt8.ofNat (n % 64 + 128) :: rest) =
      some (Char.ofNat n) :: piecesFrom .start rest := by
  have hopening := @opening_two (n / 64 % 32 + 192) (by omega) (by omega)
  have hbits : (n / 64 % 32 + 192) % 0x20 * 0x40 + n % 0x40 = n := by omega
  rw [piecesFrom_opening hopening, piecesFrom_last, hbits]

theorem piecesFrom_three (hlow : 0x800 ≤ n) (hhigh : n ≤ 0xFFFF)
    (hvalid : n < 0xD800 ∨ 0xDFFF < n) :
    piecesFrom .start (UInt8.ofNat (n / 4096 % 16 + 224) :: UInt8.ofNat (n / 64 % 64 + 128) ::
        UInt8.ofNat (n % 64 + 128) :: rest) =
      some (Char.ofNat n) :: piecesFrom .start rest := by
  have hopening := @opening_three (n / 4096 % 16 + 224) (by omega) (by omega)
  have hbits : ((n / 4096 % 16 + 224) % 0x10 * 0x40 + n / 64 % 0x40) * 0x40 + n % 0x40 = n := by
    omega
  rw [piecesFrom_opening hopening, piecesFrom_next, piecesFrom_last, hbits]
  · omega
  · split <;> omega
  · split <;> omega
  · split <;> omega

theorem piecesFrom_four (hlow : 0x10000 ≤ n) (hhigh : n < 0x110000) :
    piecesFrom .start (UInt8.ofNat (n / 262144 % 8 + 240) :: UInt8.ofNat (n / 4096 % 64 + 128) ::
        UInt8.ofNat (n / 64 % 64 + 128) :: UInt8.ofNat (n % 64 + 128) :: rest) =
      some (Char.ofNat n) :: piecesFrom .start rest := by
  have hopening := @opening_four (n / 262144 % 8 + 240) (by omega) (by omega)
  have hbits : (((n / 262144 % 8 + 240) % 0x8 * 0x40 + n / 4096 % 0x40) * 0x40 +
      n / 64 % 0x40) * 0x40 + n % 0x40 = n := by omega
  rw [piecesFrom_opening hopening, piecesFrom_next, piecesFrom_next, piecesFrom_last, hbits]
  · omega
  · omega
  · omega
  · omega
  · omega
  · split <;> omega
  · split <;> omega
  · split <;> omega

end Characters

/-- The bytes of a character are read as that character. -/
theorem piecesFrom_utf8EncodeChar (c : Char) (rest : List UInt8) :
    piecesFrom .start (String.utf8EncodeChar c ++ rest) = some c :: piecesFrom .start rest := by
  have hvalid : c.val.toNat < 0xD800 ∨ 0xDFFF < c.val.toNat ∧ c.val.toNat < 0x110000 := c.valid
  have hchar : Char.ofNat c.val.toNat = c := Char.ofNat_toNat c
  rw [String.utf8EncodeChar]
  split
  · rename_i hone
    rw [List.singleton_append, piecesFrom_one rest hone, hchar]
  · split
    · rename_i hmore htwo
      exact (piecesFrom_two rest (by omega) htwo).trans (by rw [hchar])
    · split
      · rename_i hmore hthree
        exact (piecesFrom_three rest (by omega) hthree (by omega)).trans (by rw [hchar])
      · exact (piecesFrom_four rest (by omega) (by omega)).trans (by rw [hchar])

/-! ## Texts -/

theorem pieces_encode (text : List Char) : pieces (encode text) = text.map some := by
  induction text with
  | nil => rfl
  | cons c rest ih =>
      rw [encode, List.flatMap_cons, pieces, piecesFrom_utf8EncodeChar, List.map_cons]
      exact congrArg (some c :: ·) ih

theorem decode?_encode (text : List Char) : decode? (encode text) = some text := by
  rw [decode?, pieces_encode]
  induction text with
  | nil => rfl
  | cons c rest ih => simp [List.mapM_cons, ih]

end Utf8

end ScopedCheck

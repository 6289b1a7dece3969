import ScopedCheck.Proofs.Json.Reads

/-!
# Strings between quotes

`Quoted raw content` says what a string means by the characters between its
quotes.  The scanner reads a body exactly when it is quoted in this sense.
-/

namespace ScopedCheck

namespace Json

variable {σ : Type}

/-! ## Escapes -/

/-- What stands for a character behind a backslash, whatever follows it. -/
structure IsEscape (written : List Char) (c : Char) : Prop where
  escape?_append : ∀ rest, escape? (written ++ rest) = some (c, rest)
  isBody : ∀ raw, IsBody raw → IsBody ('\\' :: (written ++ raw))

/-- Characters between quotes and the content that they stand for. -/
inductive Quoted : List Char → List Char → Prop
  | nil : Quoted [] []
  | plain {c : Char} {raw content : List Char} (hquote : c ≠ '"') (hslash : c ≠ '\\')
      (hcontrol : ¬ c.toNat < 0x20) (hraw : Quoted raw content) : Quoted (c :: raw) (c :: content)
  | escaped {written raw content : List Char} {c : Char} (hescape : IsEscape written c)
      (hraw : Quoted raw content) : Quoted ('\\' :: (written ++ raw)) (c :: content)

theorem Quoted.isBody {raw content : List Char} (h : Quoted raw content) : IsBody raw := by
  induction h with
  | nil => exact .nil
  | plain hquote hslash _ _ ih => exact .plain hquote hslash ih
  | escaped hescape _ ih => exact hescape.isBody _ ih

theorem ne_of_hexValue? {c : Char} (h : (hexValue? c).isSome = true) : c ≠ '"' ∧ c ≠ '\\' := by
  constructor <;> rintro rfl <;> exact absurd h (by decide)

theorem isBody_append {letters : List Char} (hletters : ∀ c ∈ letters, c ≠ '"' ∧ c ≠ '\\')
    {raw : List Char} (hraw : IsBody raw) : IsBody (letters ++ raw) := by
  induction letters with
  | nil => exact hraw
  | cons c letters ih =>
      obtain ⟨hc, hletters⟩ := List.forall_mem_cons.1 hletters
      exact .plain hc.1 hc.2 (ih hletters)

theorem hex4?_eq_some {text rest : List Char} {n : Nat} (h : hex4? text = some (n, rest)) :
    ∃ digits, text = digits ++ rest ∧ (∀ c ∈ digits, c ≠ '"' ∧ c ≠ '\\') ∧
      ∀ after, hex4? (digits ++ after) = some (n, after) := by
  unfold hex4? at h
  split at h
  · rename_i a b c d behind
    simp only [bind, Option.bind_eq_some_iff, pure, Option.some.injEq, Prod.mk.injEq] at h
    obtain ⟨na, ha, nb, hb, nc, hc, nd, hd, rfl, rfl⟩ := h
    refine ⟨[a, b, c, d], rfl, ?_, fun after => ?_⟩
    · intro x hx
      simp only [List.mem_cons, List.not_mem_nil, or_false] at hx
      obtain rfl | rfl | rfl | rfl := hx
      · exact ne_of_hexValue? (by rw [ha]; rfl)
      · exact ne_of_hexValue? (by rw [hb]; rfl)
      · exact ne_of_hexValue? (by rw [hc]; rfl)
      · exact ne_of_hexValue? (by rw [hd]; rfl)
    · simp [hex4?, ha, hb, hc, hd]
  · cases h

theorem unicodeEscape?_eq_some {text rest : List Char} {c : Char}
    (h : unicodeEscape? text = some (c, rest)) :
    ∃ written, text = written ++ rest ∧ (∀ raw, IsBody raw → IsBody (written ++ raw)) ∧
      ∀ after, unicodeEscape? (written ++ after) = some (c, after) := by
  unfold unicodeEscape? at h
  obtain ⟨⟨n, middle⟩, hhigh, hbehind⟩ := Option.bind_eq_some_iff.1 h
  obtain ⟨digits, rfl, hdigits, hsame⟩ := hex4?_eq_some hhigh
  dsimp only at hbehind
  split at hbehind
  · cases hbehind
  · rename_i hlow
    split at hbehind
    · rename_i hpair
      split at hbehind
      · obtain ⟨⟨low, last⟩, hread, hlast⟩ := Option.bind_eq_some_iff.1 hbehind
        obtain ⟨others, rfl, hothers, hsameLow⟩ := hex4?_eq_some hread
        dsimp only at hlast
        split at hlast
        · rename_i hrange
          simp only [pure, Option.some.injEq, Prod.mk.injEq] at hlast
          obtain ⟨rfl, rfl⟩ := hlast
          refine ⟨digits ++ '\\' :: 'u' :: others, ?_, fun raw hraw => ?_, fun after => ?_⟩
          · rw [List.append_assoc, List.cons_append, List.cons_append]
          · have hbody := isBody_append hdigits (.escaped 'u' (isBody_append hothers hraw))
            rwa [List.append_assoc, List.cons_append, List.cons_append]
          · rw [List.append_assoc, List.cons_append, List.cons_append, unicodeEscape?, hsame]
            dsimp only [bind, Option.bind]
            rw [if_neg hlow, if_pos hpair]
            simp only [hsameLow, hrange, if_true]
            rfl
        · cases hlast
      · cases hbehind
    · rename_i hpair
      cases hbehind
      refine ⟨digits, rfl, fun raw hraw => isBody_append hdigits hraw, fun after => ?_⟩
      rw [unicodeEscape?, hsame]
      dsimp only [bind, Option.bind]
      rw [if_neg hlow, if_neg hpair]
      rfl

theorem shortEscape?_isEscape {e c : Char} (h : shortEscape? e = some c) : IsEscape [e] c where
  escape?_append := by
    intro rest
    have hu : e ≠ 'u' := by
      rintro rfl
      cases h
    rw [List.cons_append, escape?]
    · rw [h]
      rfl
    · exact hu
  isBody := fun _ hraw => .escaped e hraw

theorem escape?_eq_some {text rest : List Char} {c : Char} (h : escape? text = some (c, rest)) :
    ∃ written, text = written ++ rest ∧ IsEscape written c := by
  unfold escape? at h
  split at h
  · obtain ⟨written, rfl, hbody, hsame⟩ := unicodeEscape?_eq_some h
    refine ⟨'u' :: written, rfl, fun after => hsame after, fun raw hraw => ?_⟩
    exact .escaped 'u' (hbody raw hraw)
  · rename_i e behind _
    obtain ⟨found, hfound, heq⟩ := Option.map_eq_some_iff.1 h
    obtain ⟨rfl, rfl⟩ := Prod.mk.inj heq
    exact ⟨[e], rfl, shortEscape?_isEscape hfound⟩
  · cases h

/-! ## Bodies -/

theorem stringBody?_eq_some {fuel : Nat} {text content rest : List Char}
    (h : stringBody? fuel text = some (content, rest)) :
    ∃ raw, text = raw ++ '"' :: rest ∧ Quoted raw content := by
  induction fuel generalizing text content with
  | zero => cases h
  | succ fuel ih =>
      cases text with
      | nil => cases h
      | cons c behind =>
          rw [stringBody?] at h
          split at h
          · rename_i hc
            cases h
            exact ⟨[], by rw [hc]; rfl, .nil⟩
          · rename_i hquote
            split at h
            · rename_i hc
              subst hc
              simp only [bind, Option.bind_eq_some_iff] at h
              obtain ⟨⟨escaped, middle⟩, hescape, ⟨body, last⟩, hbody, heq⟩ := h
              cases heq
              obtain ⟨written, rfl, hwritten⟩ := escape?_eq_some hescape
              obtain ⟨raw, rfl, hraw⟩ := ih hbody
              refine ⟨'\\' :: (written ++ raw), ?_, .escaped hwritten hraw⟩
              simp only [List.cons_append, List.append_assoc]
            · rename_i hslash
              split at h
              · cases h
              · rename_i hcontrol
                simp only [bind, Option.bind_eq_some_iff] at h
                obtain ⟨⟨body, last⟩, hbody, heq⟩ := h
                cases heq
                obtain ⟨raw, rfl, hraw⟩ := ih hbody
                exact ⟨c :: raw, rfl, .plain hquote hslash hcontrol hraw⟩

/-- Enough fuel is one more than what stands before the closing quote. -/
theorem stringBody?_of_quoted {raw content : List Char} (h : Quoted raw content) (rest : List Char)
    {fuel : Nat} (hfuel : raw.length < fuel) :
    stringBody? fuel (raw ++ '"' :: rest) = some (content, rest) := by
  induction h generalizing fuel with
  | nil =>
      obtain ⟨fuel, rfl⟩ := Nat.exists_eq_succ_of_ne_zero (Nat.ne_of_gt hfuel)
      simp [stringBody?]
  | plain hquote hslash hcontrol _ ih =>
      obtain ⟨fuel, rfl⟩ := Nat.exists_eq_succ_of_ne_zero (Nat.ne_zero_of_lt hfuel)
      have hbody := @ih fuel (by simpa using hfuel)
      simp [stringBody?, hquote, hslash, hcontrol, hbody]
  | @escaped written raw content c hescape _ ih =>
      obtain ⟨fuel, rfl⟩ := Nat.exists_eq_succ_of_ne_zero (Nat.ne_zero_of_lt hfuel)
      simp only [List.length_cons, List.length_append] at hfuel
      have hbody := @ih fuel (by omega)
      have hread := hescape.escape?_append (raw ++ '"' :: rest)
      simp [stringBody?, hread, hbody]

theorem reads_string_iff {text rest : List Char} {found : String} :
    Reads (string : Reader σ String) ('"' :: text) found rest ↔
      ∃ raw, text = raw ++ '"' :: rest ∧ Quoted raw found.toList := by
  unfold string
  rw [reads_get_bind_iff]
  simp only [List.drop_one, List.tail_cons]
  constructor
  · intro h
    split at h
    · rename_i body behind hbody
      rw [reads_set_bind_iff] at h
      obtain ⟨rfl, rfl⟩ := reads_pure_iff.1 h
      obtain ⟨raw, htext, hraw⟩ := stringBody?_eq_some hbody
      exact ⟨raw, htext, by rwa [String.toList_ofList]⟩
    · exact absurd h not_reads_malformed
  · rintro ⟨raw, rfl, hraw⟩
    have hfuel : raw.length < (raw ++ '"' :: rest).length + 1 := by
      rw [List.length_append]
      omega
    have hbody := stringBody?_of_quoted hraw rest hfuel
    rw [hbody]
    dsimp only
    rw [reads_set_bind_iff, reads_pure_iff, String.ofList_toList]
    exact ⟨rfl, rfl⟩

end Json

end ScopedCheck

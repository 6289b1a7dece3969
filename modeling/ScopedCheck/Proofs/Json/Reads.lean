import ScopedCheck.Proofs.Json.Token
import ScopedCheck.Proofs.Outcome

/-!
# Readers that succeed

`Reads` says what a reader takes off a text.  A compound reader takes what its
steps take, and a number is read alike before every text that does not prolong it.
-/

namespace ScopedCheck

namespace Json

variable {σ α β : Type}

/-- Whether a reader finds a value at the front of a text and leaves the rest of it. -/
def Reads (reader : Reader σ α) (text : List Char) (found : α) (rest : List Char) : Prop :=
  reader.run text = .ok (found, rest)

/-! ## Steps -/

section Steps

variable {text rest : List Char}

theorem reads_pure_iff {value found : α} :
    Reads (pure value : Reader σ α) text found rest ↔ found = value ∧ rest = text := by
  constructor
  · intro h
    obtain ⟨rfl, rfl⟩ := Prod.mk.inj (Except.ok.inj h)
    exact ⟨rfl, rfl⟩
  · rintro ⟨rfl, rfl⟩
    rfl

theorem reads_bind_iff {first : Reader σ α} {next : α → Reader σ β} {found : β} :
    Reads (first >>= next) text found rest ↔
      ∃ value middle, Reads first text value middle ∧ Reads (next value) middle found rest := by
  unfold Reads
  rw [StateT.run_bind]
  constructor
  · intro h
    obtain ⟨⟨value, middle⟩, hfirst, hnext⟩ := exists_ok_of_bind h
    exact ⟨value, middle, hfirst, hnext⟩
  · rintro ⟨value, middle, hfirst, hnext⟩
    rw [hfirst]
    exact hnext

theorem reads_bind_pure_iff {first : Reader σ α} {f : α → β} {found : β} :
    Reads (first >>= fun a => pure (f a)) text found rest ↔
      ∃ a, Reads first text a rest ∧ found = f a := by
  rw [reads_bind_iff]
  constructor
  · rintro ⟨a, middle, hfirst, hpure⟩
    obtain ⟨rfl, rfl⟩ := reads_pure_iff.1 hpure
    exact ⟨a, hfirst, rfl⟩
  · rintro ⟨a, hfirst, rfl⟩
    exact ⟨a, rest, hfirst, reads_pure_iff.2 ⟨rfl, rfl⟩⟩

theorem not_reads_malformed {found : α} : ¬ Reads (malformed : Reader σ α) text found rest := by
  intro h
  cases h

theorem not_reads_malformed_bind {next : α → Reader σ β} {found : β} :
    ¬ Reads (malformed >>= next) text found rest := by
  intro h
  obtain ⟨_, _, hbad, _⟩ := reads_bind_iff.1 h
  exact not_reads_malformed hbad

theorem reads_set_iff {after : List Char} {found : PUnit} :
    Reads (set after : Reader σ PUnit) text found rest ↔ rest = after := by
  constructor
  · intro h
    exact (Prod.mk.inj (Except.ok.inj h)).2.symm
  · rintro rfl
    rfl

theorem reads_get_bind_iff {next : List Char → Reader σ α} {found : α} :
    Reads (get >>= next) text found rest ↔ Reads (next text) text found rest :=
  Iff.rfl

theorem reads_set_bind_iff {after : List Char} {next : PUnit → Reader σ α} {found : α} :
    Reads (set after >>= next) text found rest ↔ Reads (next ⟨⟩) after found rest :=
  Iff.rfl

theorem reads_next?_bind_iff {next : Option Char → Reader σ α} {found : α} :
    Reads (next? >>= next) text found rest ↔
      Reads (next (text.dropWhile isSpace).head?) (text.dropWhile isSpace) found rest :=
  Iff.rfl

theorem reads_advance_bind_iff {next : Unit → Reader σ α} {found : α} :
    Reads (advance >>= next) text found rest ↔ Reads (next ()) (text.drop 1) found rest :=
  Iff.rfl

theorem reads_advance_iff {found : Unit} :
    Reads (advance : Reader σ Unit) text found rest ↔ rest = text.drop 1 := by
  refine ⟨fun h => ?_, fun h => by rw [h]; rfl⟩
  exact (Prod.mk.inj (Except.ok.inj h)).2.symm

theorem reads_literal_iff {letters : List Char} {found : Unit} :
    Reads (literal letters : Reader σ Unit) text found rest ↔ text = letters ++ rest := by
  unfold literal
  rw [reads_get_bind_iff]
  constructor
  · intro h
    split at h
    · rename_i hprefix
      obtain ⟨after, rfl⟩ := List.isPrefixOf_iff_prefix.1 hprefix
      rw [reads_set_iff.1 h, List.drop_left]
    · exact absurd h not_reads_malformed
  · rintro rfl
    rw [if_pos (List.isPrefixOf_iff_prefix.2 (List.prefix_append _ _)), reads_set_iff,
      List.drop_left]

end Steps

/-! ## Numbers -/

/-- Readers that go by the characters they take, whatever delimits these. -/
def IsLocal (reader : (σ : Type) → Reader σ Number) : Prop :=
  ∀ (σ : Type) (text rest : List Char) (found : Number), Reads (reader σ) text found rest →
    ∃ letters, text = letters ++ rest ∧ (∀ c ∈ letters, isWordChar c = true) ∧
      ∀ (σ' : Type) (after : List Char), Delimits after →
        Reads (reader σ') (letters ++ after) found after

theorem isWordChar_of_isDigit {c : Char} (h : c.isDigit = true) : isWordChar c = true := by
  simp [isWordChar, Char.isAlphanum, h]

theorem Delimits.startsWithDigit {after : List Char} (h : Delimits after) :
    startsWithDigit after = false := by
  cases after with
  | nil => rfl
  | cons c after =>
      rw [Json.startsWithDigit, Bool.eq_false_iff]
      intro hdigit
      have hc := h c rfl
      rw [isWordChar_of_isDigit hdigit] at hc
      cases hc

/-- Every text is some digits and then something that does not begin with a digit. -/
theorem exists_digits_append (text : List Char) :
    ∃ digits left, text = digits ++ left ∧ (∀ c ∈ digits, c.isDigit = true) ∧
      startsWithDigit left = false := by
  refine ⟨text.takeWhile Char.isDigit, text.dropWhile Char.isDigit,
    List.takeWhile_append_dropWhile.symm,
    fun c hc => List.all_eq_true.1 List.all_takeWhile c hc, ?_⟩
  cases hleft : text.dropWhile Char.isDigit with
  | nil => rfl
  | cons c left =>
      have hc := List.head?_dropWhile_not Char.isDigit text
      rw [hleft] at hc
      exact hc

theorem takeWhile_digits_append {digits after : List Char}
    (hdigits : ∀ c ∈ digits, c.isDigit = true) (hafter : startsWithDigit after = false) :
    (digits ++ after).takeWhile Char.isDigit = digits ∧
      (digits ++ after).dropWhile Char.isDigit = after := by
  rw [List.takeWhile_append_of_pos hdigits, List.dropWhile_append_of_pos hdigits]
  cases after with
  | nil => simp
  | cons c after =>
      have hc : c.isDigit = false := hafter
      simp [hc]

theorem takeDigits_append (n : Nat) (digits : List Char) {after : List Char}
    (hafter : startsWithDigit after = false) :
    takeDigits n (digits ++ after) =
      ((takeDigits n digits).1, (takeDigits n digits).2.1, (takeDigits n digits).2.2 ++ after) := by
  induction digits generalizing n with
  | nil =>
      cases after with
      | nil => rfl
      | cons c after =>
          have hc : c.isDigit = false := hafter
          simp [takeDigits, hc]
  | cons c digits ih =>
      simp only [List.cons_append, takeDigits]
      split
      · simp only [ih]
      · rfl

theorem takeDigits_suffix (n : Nat) (digits : List Char) :
    (takeDigits n digits).2.2 <:+ digits ∧
      (takeDigits n digits).2.1 + (takeDigits n digits).2.2.length = digits.length := by
  induction digits generalizing n with
  | nil => simp [takeDigits]
  | cons c digits ih =>
      simp only [takeDigits]
      split
      · have hrest := ih (n * 10 + digitValue c)
        generalize takeDigits (n * 10 + digitValue c) digits = taken at hrest ⊢
        obtain ⟨found, count, rest⟩ := taken
        obtain ⟨hsuffix, hlength⟩ := hrest
        refine ⟨hsuffix.trans (List.suffix_cons c digits), ?_⟩
        simp only [List.length_cons] at hlength ⊢
        omega
      · simp

theorem isLocal_pure (value : Number) : IsLocal fun _ => pure value := by
  intro σ text rest found h
  obtain ⟨rfl, rfl⟩ := reads_pure_iff.1 h
  exact ⟨[], rfl, by simp, fun σ' after _ => reads_pure_iff.2 ⟨rfl, rfl⟩⟩

theorem isLocal_malformed : IsLocal fun _ => malformed :=
  fun _ _ _ _ h => absurd h not_reads_malformed

theorem isLocal_scaled (negative : Bool) (significand : Nat) (exponent : Int) :
    IsLocal fun _ => scaled negative significand exponent := by
  unfold scaled
  cases Binary64.scale? negative significand exponent with
  | none => exact isLocal_malformed
  | some x => exact isLocal_pure (.float x)

theorem isLocal_integer (negative : Bool) (n : Nat) : IsLocal fun _ => integer negative n := by
  unfold integer
  split
  · exact isLocal_pure _
  · split
    · exact isLocal_pure _
    · exact isLocal_scaled true n 0

theorem startsWithDigit_append {letters rest after : List Char}
    (h : startsWithDigit (letters ++ rest) = false) (hafter : Delimits after) :
    startsWithDigit (letters ++ after) = false := by
  cases letters with
  | nil => exact hafter.startsWithDigit
  | cons c letters => exact h

theorem startsWithDigit_of_digits {digits after : List Char} (hne : digits ≠ [])
    (hdigits : ∀ c ∈ digits, c.isDigit = true) : startsWithDigit (digits ++ after) = true := by
  obtain ⟨c, digits, rfl⟩ := List.exists_cons_of_ne_nil hne
  exact hdigits c List.mem_cons_self

theorem exists_exponentSign (text : List Char) :
    ∃ sign down behind, exponentSign text = (down, behind) ∧ text = sign ++ behind ∧
      (∀ c ∈ sign, isWordChar c = true) ∧
        ∀ after, startsWithDigit after = true → exponentSign (sign ++ after) = (down, after) := by
  unfold exponentSign
  split
  · exact ⟨['+'], _, _, rfl, rfl, List.forall_mem_singleton.2 rfl, fun _ _ => rfl⟩
  · exact ⟨['-'], _, _, rfl, rfl, List.forall_mem_singleton.2 rfl, fun _ _ => rfl⟩
  · refine ⟨[], _, _, rfl, rfl, by simp, fun after hafter => ?_⟩
    cases after with
    | nil => cases hafter
    | cons c after =>
        have hc : c.isDigit = true := hafter
        rw [List.nil_append]
        split
        · rename_i heq
          rw [(List.cons.inj heq).1] at hc
          exact absurd hc (by decide)
        · rename_i heq
          rw [(List.cons.inj heq).1] at hc
          exact absurd hc (by decide)
        · rfl

theorem reads_exponentPart_iff {negative down : Bool} {significand : Nat} {exponent : Int}
    {text digits left rest : List Char} {found : Number}
    (hsign : exponentSign text = (down, digits ++ left))
    (hdigits : ∀ c ∈ digits, c.isDigit = true) (hleft : startsWithDigit left = false) :
    Reads (exponentPart negative significand exponent : Reader σ Number) text found rest ↔
      digits ≠ [] ∧
        Reads (scaled negative significand
          (let power := digits.foldl (fun n c => n * 10 + digitValue c) 0
          if down then exponent - power else exponent + power) : Reader σ Number)
          left found rest := by
  obtain ⟨htake, hdrop⟩ := takeWhile_digits_append hdigits hleft
  unfold exponentPart
  rw [reads_get_bind_iff, hsign]
  dsimp only
  rw [htake, hdrop]
  split
  · rename_i hempty
    rw [List.isEmpty_iff] at hempty
    constructor
    · intro h
      exact absurd h not_reads_malformed_bind
    · rintro ⟨hne, _⟩
      exact absurd hempty hne
  · rename_i hempty
    rw [List.isEmpty_iff] at hempty
    rw [reads_set_bind_iff]
    exact ⟨fun h => ⟨hempty, h⟩, fun h => h.2⟩

theorem isLocal_exponentPart (negative : Bool) (significand : Nat) (exponent : Int) :
    IsLocal fun _ => exponentPart negative significand exponent := by
  intro σ text rest found h
  obtain ⟨sign, down, behind, hparts, rfl, hsign, hsame⟩ := exists_exponentSign text
  obtain ⟨digits, left, rfl, hdigits, hleft⟩ := exists_digits_append behind
  obtain ⟨hne, hscaled⟩ := (reads_exponentPart_iff hparts hdigits hleft).1 h
  obtain ⟨letters, rfl, hletters, hread⟩ := isLocal_scaled _ _ _ _ _ _ _ hscaled
  refine ⟨sign ++ (digits ++ letters), by simp only [List.append_assoc], ?_, ?_⟩
  · intro c hc
    simp only [List.mem_append] at hc
    obtain hc | hc | hc := hc
    · exact hsign c hc
    · exact isWordChar_of_isDigit (hdigits c hc)
    · exact hletters c hc
  · intro σ' after hafter
    simp only [List.append_assoc]
    exact (reads_exponentPart_iff (hsame _ (startsWithDigit_of_digits hne hdigits)) hdigits
      (startsWithDigit_append hleft hafter)).2 ⟨hne, hread σ' after hafter⟩

/-- A word character that begins a text is there whatever delimits the text. -/
theorem exists_cons_of_append {letters after behind : List Char} {c : Char}
    (h : letters ++ after = c :: behind) (hc : isWordChar c = true) (hafter : Delimits after)
    (rest : List Char) : ∃ others, letters ++ rest = c :: others := by
  cases letters with
  | nil =>
      have hword := hafter c (by rw [← List.nil_append after, h]; rfl)
      rw [hc] at hword
      cases hword
  | cons d letters =>
      obtain ⟨rfl, _⟩ := List.cons.inj h
      exact ⟨letters ++ rest, rfl⟩

theorem isLocal_optionalExponent (negative : Bool) (significand : Nat) (exponent : Int) :
    IsLocal fun _ => optionalExponent negative significand exponent := by
  intro σ text rest found h
  have hexponent := isLocal_exponentPart negative significand exponent
  simp only [optionalExponent, reads_get_bind_iff] at h ⊢
  split at h
  · obtain ⟨letters, rfl, hletters, hread⟩ := hexponent _ _ _ _ h
    exact ⟨'e' :: letters, rfl, List.forall_mem_cons.2 ⟨by decide, hletters⟩, hread⟩
  · obtain ⟨letters, rfl, hletters, hread⟩ := hexponent _ _ _ _ h
    exact ⟨'E' :: letters, rfl, List.forall_mem_cons.2 ⟨by decide, hletters⟩, hread⟩
  · rename_i hsmall hlarge
    obtain ⟨letters, rfl, hletters, hread⟩ := isLocal_scaled _ _ _ _ _ _ _ h
    refine ⟨letters, rfl, hletters, fun σ' after hafter => ?_⟩
    split
    · rename_i heq
      obtain ⟨others, hothers⟩ := exists_cons_of_append heq (by decide) hafter rest
      exact absurd hothers (hsmall others)
    · rename_i heq
      obtain ⟨others, hothers⟩ := exists_cons_of_append heq (by decide) hafter rest
      exact absurd hothers (hlarge others)
    · exact hread σ' after hafter

/-- Digits after a decimal point are taken as far as they fit, and the others are passed over. -/
theorem reads_fractionPart_append_iff {negative : Bool} {significand : Nat} {exponent : Int}
    {digits after rest : List Char} {found : Number} (hdigits : ∀ c ∈ digits, c.isDigit = true)
    (hafter : startsWithDigit after = false) :
    Reads (fractionPart negative significand exponent : Reader σ Number) (digits ++ after)
        found rest ↔
      digits ≠ [] ∧ Reads (optionalExponent negative (takeDigits significand digits).1
        (exponent - (takeDigits significand digits).2.1) : Reader σ Number) after found rest := by
  obtain ⟨hsuffix, hlength⟩ := takeDigits_suffix significand digits
  unfold fractionPart
  rw [reads_get_bind_iff, takeDigits_append significand digits hafter]
  generalize takeDigits significand digits = taken at hsuffix hlength ⊢
  obtain ⟨extended, count, left⟩ := taken
  dsimp only at hsuffix hlength ⊢
  by_cases hnil : left = []
  · subst hnil
    rw [List.nil_append, hafter, if_neg Bool.false_ne_true]
    by_cases hcount : count = 0
    · have hempty : digits = [] := by
        rw [← List.length_eq_zero_iff, ← hlength, hcount]
        rfl
      rw [if_pos hcount]
      constructor
      · intro h
        exact absurd h not_reads_malformed_bind
      · rintro ⟨hne, _⟩
        exact absurd hempty hne
    · have hne : digits ≠ [] := by
        rintro rfl
        simp only [List.length_nil] at hlength
        omega
      rw [if_neg hcount, reads_set_bind_iff]
      exact ⟨fun h => ⟨hne, h⟩, fun h => h.2⟩
  · have hleft : ∀ c ∈ left, c.isDigit = true := fun c hc => hdigits c (hsuffix.subset hc)
    have hne : digits ≠ [] := by
      rintro rfl
      exact hnil (List.eq_nil_of_suffix_nil hsuffix)
    rw [if_pos (startsWithDigit_of_digits hnil hleft), reads_set_bind_iff,
      (takeWhile_digits_append hleft hafter).2]
    exact ⟨fun h => ⟨hne, h⟩, fun h => h.2⟩

theorem isLocal_fractionPart (negative : Bool) (significand : Nat) (exponent : Int) :
    IsLocal fun _ => fractionPart negative significand exponent := by
  intro σ text rest found h
  obtain ⟨digits, left, rfl, hdigits, hleft⟩ := exists_digits_append text
  obtain ⟨hne, hexponent⟩ := (reads_fractionPart_append_iff hdigits hleft).1 h
  obtain ⟨letters, rfl, hletters, hread⟩ := isLocal_optionalExponent _ _ _ _ _ _ _ hexponent
  refine ⟨digits ++ letters, by rw [List.append_assoc], ?_, fun σ' after hafter => ?_⟩
  · exact List.forall_mem_append.2 ⟨fun c hc => isWordChar_of_isDigit (hdigits c hc), hletters⟩
  · rw [List.append_assoc]
    exact (reads_fractionPart_append_iff hdigits (startsWithDigit_append hleft hafter)).2
      ⟨hne, hread σ' after hafter⟩

theorem isLocal_afterInteger (negative : Bool) (n dropped : Nat) :
    IsLocal fun _ => afterInteger negative n dropped := by
  intro σ text rest found h
  have hexponent := isLocal_exponentPart negative n dropped
  simp only [afterInteger, reads_get_bind_iff] at h ⊢
  split at h
  · obtain ⟨letters, rfl, hletters, hread⟩ := isLocal_fractionPart _ _ _ _ _ _ _ h
    exact ⟨'.' :: letters, rfl, List.forall_mem_cons.2 ⟨by decide, hletters⟩, hread⟩
  · obtain ⟨letters, rfl, hletters, hread⟩ := hexponent _ _ _ _ h
    exact ⟨'e' :: letters, rfl, List.forall_mem_cons.2 ⟨by decide, hletters⟩, hread⟩
  · obtain ⟨letters, rfl, hletters, hread⟩ := hexponent _ _ _ _ h
    exact ⟨'E' :: letters, rfl, List.forall_mem_cons.2 ⟨by decide, hletters⟩, hread⟩
  · rename_i hpoint hsmall hlarge
    have hwhole : IsLocal fun _ =>
        if dropped = 0 then integer negative n else scaled negative n dropped := by
      split
      · exact isLocal_integer negative n
      · exact isLocal_scaled negative n dropped
    obtain ⟨letters, rfl, hletters, hread⟩ := hwhole _ _ _ _ h
    refine ⟨letters, rfl, hletters, fun σ' after hafter => ?_⟩
    split
    · rename_i heq
      obtain ⟨others, hothers⟩ := exists_cons_of_append heq (by decide) hafter rest
      exact absurd hothers (hpoint others)
    · rename_i heq
      obtain ⟨others, hothers⟩ := exists_cons_of_append heq (by decide) hafter rest
      exact absurd hothers (hsmall others)
    · rename_i heq
      obtain ⟨others, hothers⟩ := exists_cons_of_append heq (by decide) hafter rest
      exact absurd hothers (hlarge others)
    · exact hread σ' after hafter

def unsigned (negative : Bool) (behind : List Char) : Reader σ Number :=
  match behind with
  | '0' :: rest => do
      if startsWithDigit rest then malformed
      set rest
      afterInteger negative 0 0
  | c :: rest => do
      if !c.isDigit then malformed
      let (n, _, rest) := takeDigits (digitValue c) rest
      let dropped := rest.takeWhile Char.isDigit
      set (rest.dropWhile Char.isDigit)
      afterInteger negative n dropped.length
  | [] => malformed

theorem reads_number_minus_iff {text rest : List Char} {found : Number} :
    Reads (number : Reader σ Number) ('-' :: text) found rest ↔
      Reads (unsigned true text : Reader σ Number) ('-' :: text) found rest := by
  have hsign : (('-' :: text).head? == some '-') = true := by simp
  unfold number
  rw [reads_get_bind_iff, hsign]
  exact Iff.rfl

theorem reads_number_iff {text rest : List Char} {found : Number} (h : text.head? ≠ some '-') :
    Reads (number : Reader σ Number) text found rest ↔
      Reads (unsigned false text : Reader σ Number) text found rest := by
  have hsign : (text.head? == some '-') = false := beq_eq_false_iff_ne.2 h
  unfold number
  rw [reads_get_bind_iff, hsign]
  exact Iff.rfl

/-- A number's integer part has no digit after a leading zero. -/
theorem reads_unsigned_iff {negative : Bool} {c : Char} {digits left text rest : List Char}
    {found : Number} (hc : c.isDigit = true) (hdigits : ∀ d ∈ digits, d.isDigit = true)
    (hleft : startsWithDigit left = false) :
    Reads (unsigned negative (c :: (digits ++ left)) : Reader σ Number) text found rest ↔
      (c = '0' → digits = []) ∧
        Reads (afterInteger negative (takeDigits (digitValue c) digits).1
          (takeDigits (digitValue c) digits).2.2.length : Reader σ Number) left found rest := by
  unfold unsigned
  split
  · rename_i behind heq
    obtain ⟨rfl, rfl⟩ := List.cons.inj heq
    by_cases hnil : digits = []
    · subst hnil
      rw [List.nil_append, hleft, if_neg Bool.false_ne_true]
      exact ⟨fun h => ⟨fun _ => rfl, h⟩, fun h => h.2⟩
    · rw [if_pos (startsWithDigit_of_digits hnil hdigits)]
      constructor
      · intro h
        exact absurd h not_reads_malformed_bind
      · rintro ⟨hzero, _⟩
        exact absurd (hzero rfl) hnil
  · rename_i d behind hzero heq
    obtain ⟨rfl, rfl⟩ := List.cons.inj heq
    have hne : c ≠ '0' := hzero
    have hsuffix := (takeDigits_suffix (digitValue c) digits).1
    obtain ⟨htake, hdrop⟩ := takeWhile_digits_append
      (fun d hd => hdigits d (hsuffix.subset hd)) hleft
    rw [takeDigits_append _ _ hleft]
    dsimp only
    rw [htake, hdrop]
    simp only [hc, Bool.not_true, Bool.false_eq_true, if_false]
    exact ⟨fun h => ⟨fun h0 => absurd h0 hne, h⟩, fun h => h.2⟩
  · rename_i heq
    cases heq

theorem reads_unsigned_cases {negative : Bool} {behind text rest : List Char} {found : Number}
    (h : Reads (unsigned negative behind : Reader σ Number) text found rest) :
    ∃ c digits left, behind = c :: (digits ++ left) ∧ c.isDigit = true ∧
      (∀ d ∈ digits, d.isDigit = true) ∧ startsWithDigit left = false := by
  unfold unsigned at h
  split at h
  · rename_i behind
    obtain ⟨digits, left, rfl, hdigits, hleft⟩ := exists_digits_append behind
    exact ⟨'0', digits, left, rfl, rfl, hdigits, hleft⟩
  · rename_i c behind _
    obtain ⟨digits, left, rfl, hdigits, hleft⟩ := exists_digits_append behind
    refine ⟨c, digits, left, rfl, ?_, hdigits, hleft⟩
    by_contra hc
    rw [if_pos (by simp [hc])] at h
    exact absurd h not_reads_malformed_bind
  · exact absurd h not_reads_malformed

theorem isLocal_unsigned (negative : Bool) {behind text rest : List Char} {found : Number}
    (h : Reads (unsigned negative behind : Reader σ Number) text found rest) :
    ∃ c letters, behind = c :: (letters ++ rest) ∧ c.isDigit = true ∧
      (∀ d ∈ letters, isWordChar d = true) ∧
        ∀ (σ' : Type) (whole after : List Char), Delimits after →
          Reads (unsigned negative (c :: (letters ++ after)) : Reader σ' Number)
            whole found after := by
  obtain ⟨c, digits, left, rfl, hc, hdigits, hleft⟩ := reads_unsigned_cases h
  obtain ⟨hzero, hbehind⟩ := (reads_unsigned_iff hc hdigits hleft).1 h
  obtain ⟨letters, rfl, hletters, hread⟩ := isLocal_afterInteger _ _ _ _ _ _ _ hbehind
  refine ⟨c, digits ++ letters, by rw [List.append_assoc], hc, ?_, ?_⟩
  · exact List.forall_mem_append.2 ⟨fun d hd => isWordChar_of_isDigit (hdigits d hd), hletters⟩
  · intro σ' whole after hafter
    rw [List.append_assoc]
    exact (reads_unsigned_iff hc hdigits (startsWithDigit_append hleft hafter)).2
      ⟨hzero, hread σ' after hafter⟩

/-- Whether some characters are read as a number, whatever delimits them. -/
def IsNumeral (letters : List Char) (found : Number) : Prop :=
  ∀ (σ : Type) (after : List Char), Delimits after →
    Reads (number : Reader σ Number) (letters ++ after) found after

/-- A number is read off a numeral, which begins with a digit or with a minus sign. -/
theorem exists_numeral {text rest : List Char} {found : Number}
    (h : Reads (number : Reader σ Number) text found rest) :
    ∃ c letters, text = c :: (letters ++ rest) ∧ (c = '-' ∨ c.isDigit = true) ∧
      (∀ d ∈ letters, isWordChar d = true) ∧ IsNumeral (c :: letters) found := by
  by_cases hminus : text.head? = some '-'
  · obtain ⟨behind, rfl⟩ := List.head?_eq_some_iff.1 hminus
    obtain ⟨c, letters, rfl, hc, hletters, hread⟩ :=
      isLocal_unsigned true (reads_number_minus_iff.1 h)
    refine ⟨'-', c :: letters, rfl, .inl rfl, ?_, fun σ' after hafter => ?_⟩
    · exact List.forall_mem_cons.2 ⟨isWordChar_of_isDigit hc, hletters⟩
    · exact reads_number_minus_iff.2 (hread σ' _ after hafter)
  · obtain ⟨c, letters, rfl, hc, hletters, hread⟩ :=
      isLocal_unsigned false ((reads_number_iff hminus).1 h)
    refine ⟨c, letters, rfl, .inr hc, hletters, fun σ' after hafter => ?_⟩
    have hhead : (c :: letters ++ after).head? ≠ some '-' := hminus
    exact (reads_number_iff hhead).2 (hread σ' _ after hafter)

end Json

end ScopedCheck

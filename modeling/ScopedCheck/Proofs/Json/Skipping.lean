import ScopedCheck.Proofs.Json.Recognition

/-!
# Skipping takes what reading takes

A value whose content does not matter is skipped by rules of its own, which are
laxer than those for reading.  Of a text that can be read they take the same
characters.
-/

namespace ScopedCheck

namespace Json

variable {σ : Type}

/-! ## Strings -/

theorem skipString?_unicode (fuel : Nat) (rest : List Char) :
    skipString? (fuel + 1) ('\\' :: 'u' :: rest) =
      (hex4? rest).bind fun found => skipString? fuel found.2 :=
  rfl

theorem skipString?_short (fuel : Nat) {e : Char} (h : e ≠ 'u') (rest : List Char) :
    skipString? (fuel + 1) ('\\' :: e :: rest) =
      (shortEscape? e).bind fun _ => skipString? fuel rest := by
  rw [skipString?.eq_def]
  simp

theorem skipString?_plain (fuel : Nat) {c : Char} (hquote : c ≠ '"') (hslash : c ≠ '\\')
    (hcontrol : ¬ c.toNat < 0x20) (rest : List Char) :
    skipString? (fuel + 1) (c :: rest) = skipString? fuel rest := by
  rw [skipString?.eq_def]
  simp [hquote, hslash, hcontrol]

theorem skipString?_escape {fuel : Nat} {behind middle rest : List Char} {c : Char}
    (h : escape? behind = some (c, middle)) (hfuel : behind.length < fuel)
    (hskip : ∀ n, middle.length < n → skipString? n middle = some rest) :
    skipString? (fuel + 1) ('\\' :: behind) = some rest := by
  unfold escape? at h
  split at h
  · unfold unicodeEscape? at h
    obtain ⟨⟨n, after⟩, hhigh, hbehind⟩ := Option.bind_eq_some_iff.1 h
    obtain ⟨digits, rfl, _, _⟩ := hex4?_eq_some hhigh
    simp only [List.length_cons, List.length_append] at hfuel
    rw [skipString?_unicode, hhigh, Option.bind_some]
    dsimp only at hbehind ⊢
    split at hbehind
    · cases hbehind
    · split at hbehind
      · split at hbehind
        · obtain ⟨⟨low, last⟩, hread, hlast⟩ := Option.bind_eq_some_iff.1 hbehind
          obtain ⟨others, rfl, _, _⟩ := hex4?_eq_some hread
          dsimp only at hlast
          split at hlast
          · simp only [pure, Option.some.injEq, Prod.mk.injEq] at hlast
            obtain ⟨_, rfl⟩ := hlast
            simp only [List.length_cons, List.length_append] at hfuel
            obtain ⟨fuel, rfl⟩ := Nat.exists_eq_succ_of_ne_zero (n := fuel) (by omega)
            rw [skipString?_unicode, hread, Option.bind_some]
            exact hskip fuel (by omega)
          · cases hlast
        · cases hbehind
      · simp only [pure, Option.some.injEq, Prod.mk.injEq] at hbehind
        obtain ⟨_, rfl⟩ := hbehind
        exact hskip fuel (by omega)
  · rename_i e text hletter
    obtain ⟨found, hfound, heq⟩ := Option.map_eq_some_iff.1 h
    obtain ⟨_, rfl⟩ := Prod.mk.inj heq
    simp only [List.length_cons] at hfuel
    rw [skipString?_short fuel hletter, hfound, Option.bind_some]
    exact hskip fuel (by omega)
  · cases h

theorem skipString?_of_stringBody? {fuel n : Nat} {text content rest : List Char}
    (h : stringBody? fuel text = some (content, rest)) (hn : text.length < n) :
    skipString? n text = some rest := by
  induction fuel generalizing text content n with
  | zero => cases h
  | succ fuel ih =>
      obtain ⟨n, rfl⟩ := Nat.exists_eq_succ_of_ne_zero (Nat.ne_zero_of_lt hn)
      cases text with
      | nil => cases h
      | cons c behind =>
          simp only [List.length_cons] at hn
          rw [stringBody?] at h
          split at h
          · rename_i hc
            cases h
            rw [hc, skipString?.eq_def]
            rfl
          · rename_i hquote
            split at h
            · rename_i hc
              subst hc
              simp only [bind, Option.bind_eq_some_iff] at h
              obtain ⟨⟨escaped, middle⟩, hescape, ⟨body, last⟩, hbody, heq⟩ := h
              cases heq
              exact skipString?_escape hescape (by omega) fun _ hmiddle => ih hbody hmiddle
            · rename_i hslash
              split at h
              · cases h
              · rename_i hcontrol
                simp only [bind, Option.bind_eq_some_iff] at h
                obtain ⟨⟨body, last⟩, hbody, heq⟩ := h
                cases heq
                rw [skipString?_plain n hquote hslash hcontrol]
                exact ih hbody (by omega)

theorem reads_skipString {text rest : List Char} {found : String}
    (h : Reads (string : Reader σ String) text found rest) :
    Reads (skipString : Reader σ Unit) text () rest := by
  unfold string at h
  unfold skipString
  rw [reads_get_bind_iff] at h ⊢
  dsimp only at h ⊢
  split at h
  · rename_i body behind hbody
    rw [reads_set_bind_iff] at h
    obtain ⟨_, rfl⟩ := reads_pure_iff.1 h
    rw [skipString?_of_stringBody? hbody (Nat.lt_succ_self _)]
    exact reads_set_iff.2 rfl
  · exact absurd h not_reads_malformed

/-! ## Numbers -/

theorem reads_skipDigits {digits left : List Char} (hne : digits ≠ [])
    (hdigits : ∀ c ∈ digits, c.isDigit = true) (hleft : startsWithDigit left = false) :
    Reads (skipDigits : Reader σ Unit) (digits ++ left) () left := by
  unfold skipDigits
  rw [reads_get_bind_iff, startsWithDigit_of_digits hne hdigits]
  have hdrop := (takeWhile_digits_append hdigits hleft).2
  unfold Reads
  exact congrArg (fun after => Except.ok ((), after)) hdrop

theorem eq_of_reads_scaled {negative : Bool} {significand : Nat} {exponent : Int}
    {text rest : List Char} {found : Number}
    (h : Reads (scaled negative significand exponent : Reader σ Number) text found rest) :
    rest = text := by
  unfold scaled at h
  split at h
  · exact (reads_pure_iff.1 h).2
  · exact absurd h not_reads_malformed

theorem eq_of_reads_integer {negative : Bool} {n : Nat} {text rest : List Char} {found : Number}
    (h : Reads (integer negative n : Reader σ Number) text found rest) : rest = text := by
  unfold integer at h
  split at h
  · exact (reads_pure_iff.1 h).2
  · split at h
    · exact (reads_pure_iff.1 h).2
    · exact eq_of_reads_scaled h

theorem reads_skipDigits_of_exponentPart {negative : Bool} {significand : Nat} {exponent : Int}
    {text rest : List Char} {found : Number}
    (h : Reads (exponentPart negative significand exponent : Reader σ Number) text found rest) :
    Reads (skipDigits : Reader σ Unit) (exponentSign text).2 () rest := by
  obtain ⟨digits, left, hbehind, hdigits, hleft⟩ := exists_digits_append (exponentSign text).2
  have hsign : exponentSign text = ((exponentSign text).1, digits ++ left) := by rw [← hbehind]
  obtain ⟨hne, hscaled⟩ := (reads_exponentPart_iff hsign hdigits hleft).1 h
  rw [hbehind, eq_of_reads_scaled hscaled]
  exact reads_skipDigits hne hdigits hleft

theorem reads_skipExponent {negative : Bool} {significand : Nat} {exponent : Int}
    {text rest : List Char} {found : Number}
    (h : Reads (optionalExponent negative significand exponent : Reader σ Number) text found rest) :
    Reads (skipExponent : Reader σ Unit) text () rest := by
  unfold optionalExponent at h
  unfold skipExponent
  rw [reads_get_bind_iff] at h ⊢
  split at h
  · exact reads_skipDigits_of_exponentPart h
  · exact reads_skipDigits_of_exponentPart h
  · rename_i hsmall hlarge
    rw [eq_of_reads_scaled h]
    exact reads_pure_iff.2 ⟨rfl, rfl⟩

/-- Skips what may follow the digits of an integer part. -/
def skipFraction : Reader σ Unit := do
  match ← get with
  | '.' :: rest => set rest; skipDigits; skipExponent
  | _ => skipExponent

theorem reads_skipFraction {negative : Bool} {n dropped : Nat} {text rest : List Char}
    {found : Number}
    (h : Reads (afterInteger negative n dropped : Reader σ Number) text found rest) :
    Reads (skipFraction : Reader σ Unit) text () rest := by
  unfold afterInteger at h
  unfold skipFraction
  rw [reads_get_bind_iff] at h ⊢
  split at h
  · rename_i behind
    rw [reads_set_bind_iff] at h
    obtain ⟨digits, left, rfl, hdigits, hleft⟩ := exists_digits_append behind
    obtain ⟨hne, hexponent⟩ := (reads_fractionPart_append_iff hdigits hleft).1 h
    refine reads_set_bind_iff.2 (reads_bind_iff.2 ?_)
    exact ⟨(), left, reads_skipDigits hne hdigits hleft, reads_skipExponent hexponent⟩
  · exact reads_skipDigits_of_exponentPart h
  · exact reads_skipDigits_of_exponentPart h
  · rename_i hpoint hsmall hlarge
    have hrest : rest = text := by
      split at h
      · exact eq_of_reads_integer h
      · exact eq_of_reads_scaled h
    rw [hrest]
    split
    · exact absurd rfl (hpoint _)
    · unfold skipExponent
      rw [reads_get_bind_iff]
      split
      · exact absurd rfl (hsmall _)
      · exact absurd rfl (hlarge _)
      · exact reads_pure_iff.2 ⟨rfl, rfl⟩

/-- Skips a number by the text behind its sign. -/
def skipUnsigned (behind : List Char) : Reader σ Unit := do
  match behind with
  | '0' :: rest => if startsWithDigit rest then malformed else set rest
  | rest => set rest; skipDigits
  skipFraction

theorem reads_skipUnsigned {negative : Bool} {behind text rest : List Char} {found : Number}
    (h : Reads (unsigned negative behind : Reader σ Number) text found rest) :
    Reads (skipUnsigned behind : Reader σ Unit) text () rest := by
  obtain ⟨c, digits, left, rfl, hc, hdigits, hleft⟩ := reads_unsigned_cases h
  obtain ⟨hzero, hbehind⟩ := (reads_unsigned_iff hc hdigits hleft).1 h
  have hfraction := reads_skipFraction hbehind
  unfold skipUnsigned
  split
  · rename_i behind heq
    obtain ⟨rfl, rfl⟩ := List.cons.inj heq
    rw [hzero rfl, List.nil_append, hleft, if_neg Bool.false_ne_true]
    exact reads_bind_iff.2 ⟨(), left, reads_set_iff.2 rfl, hfraction⟩
  · have hall : ∀ d ∈ c :: digits, d.isDigit = true := List.forall_mem_cons.2 ⟨hc, hdigits⟩
    have hskip := @reads_skipDigits σ _ _ (List.cons_ne_nil c digits) hall hleft
    exact reads_set_bind_iff.2 (reads_bind_iff.2 ⟨(), left, hskip, hfraction⟩)

theorem reads_skipNumber {text rest : List Char} {found : Number}
    (h : Reads (number : Reader σ Number) text found rest) :
    Reads (skipNumber : Reader σ Unit) text () rest := by
  by_cases hminus : text.head? = some '-'
  · obtain ⟨behind, rfl⟩ := List.head?_eq_some_iff.1 hminus
    have hskip := reads_skipUnsigned (reads_number_minus_iff.1 h)
    unfold skipNumber
    rw [reads_get_bind_iff]
    exact hskip
  · have hsign : (text.head? == some '-') = false := beq_eq_false_iff_ne.2 hminus
    have hskip := reads_skipUnsigned ((reads_number_iff hminus).1 h)
    unfold skipNumber
    rw [reads_get_bind_iff, hsign]
    exact hskip

/-! ## Values -/

theorem reads_skipValue_scalar {text rest : List Char} {found : Value}
    (h : Reads (scalarOr fun _ => malformed : Reader σ Value) text found rest) (fuel : Nat) :
    Reads (skipValue (fuel + 1) : Reader σ Unit) text () rest := by
  unfold scalarOr at h
  unfold skipValue
  rw [reads_next?_bind_iff] at h ⊢
  split at h
  · exact absurd h not_reads_malformed
  · obtain ⟨_, hstring, _⟩ := reads_bind_pure_iff.1 h
    exact reads_skipString hstring
  · obtain ⟨_, hletters, _⟩ := reads_bind_pure_iff.1 h
    exact hletters
  · obtain ⟨_, hletters, _⟩ := reads_bind_pure_iff.1 h
    exact hletters
  · obtain ⟨_, hletters, _⟩ := reads_bind_pure_iff.1 h
    exact hletters
  · exact absurd h not_reads_malformed
  · exact absurd h not_reads_malformed
  · split at h
    · rename_i hfirst
      obtain ⟨_, hnumber, _⟩ := reads_bind_pure_iff.1 h
      rw [if_pos hfirst]
      exact reads_skipNumber hnumber
    · exact absurd h not_reads_malformed

theorem reads_skipItems {α : Type} {item : List Token → α → Prop} {step : Reader σ Unit}
    {close : Char} (hjoined : ∀ tokens a, item tokens a → Joined tokens) (hclose : Closing close)
    {tokens : List Token} {found : List α} (h : Listed item tokens found)
    (hstep : ∀ inner a used rest, inner.length ≤ tokens.length → item inner a →
      Spelled inner used → Delimits rest → Reads step (used ++ rest) () rest)
    {used before : List Char} (hused : Spelled tokens used) (hbefore : IsBlank before)
    (opening : Char) (rest : List Char) :
    Reads (foldContainer close (fun _ => step) ())
      (opening :: (used ++ (before ++ close :: rest))) () rest := by
  have hbounded : Listed (fun inner a => inner.length ≤ tokens.length ∧ item inner a) tokens found :=
    h.imp fun _ _ hlength ha => ⟨hlength, ha⟩
  have hadvances : Advances (fun _ => step)
      (fun inner a => inner.length ≤ tokens.length ∧ item inner a)
      fun (_ : Unit) (_ : α) => (pure () : Except Empty Unit) := by
    intro _ a _ inner used rest _ ha hused hrest
    exact hstep inner a used rest ha.1 ha.2 hused hrest
  refine reads_foldContainer (fun inner a ha => hjoined inner a ha.2) hadvances hclose hbounded
    ?_ hused hbefore opening rest
  rw [List.foldlM_pure]
  rfl

theorem reads_skipValue_token {token : Token} {value : Value} (h : Scalar token value) {fuel : Nat}
    (hfuel : 0 < fuel) {used rest : List Char} (hused : Spelled [token] used)
    (hrest : Delimits rest) : Reads (skipValue fuel : Reader σ Unit) (used ++ rest) () rest := by
  obtain ⟨fuel, rfl⟩ := Nat.exists_eq_succ_of_ne_zero (Nat.ne_of_gt hfuel)
  obtain ⟨before, _, hbefore, _, rfl, rfl⟩ := hused
  rw [List.append_nil, List.append_assoc]
  exact reads_skipValue_scalar (reads_scalarOr_scalar h hbefore hrest) fuel

def skipMember (item : Reader σ Unit) : Reader σ Unit := do
  if (← next?) ≠ some '"' then malformed
  skipString
  colon
  item

theorem reads_skipMember {item : Reader σ Unit} {text middle last rest : List Char}
    {found : String} (hname : Reads (name : Reader σ String) text found middle)
    (hcolon : Reads (colon : Reader σ Unit) middle () last) (hitem : Reads item last () rest) :
    Reads (skipMember item) text () rest := by
  unfold name at hname
  unfold skipMember
  rw [reads_next?_bind_iff] at hname ⊢
  split at hname
  · exact absurd hname not_reads_malformed_bind
  · rename_i hquote
    rw [if_neg hquote]
    exact reads_bind_iff.2
      ⟨(), middle, reads_skipString hname, reads_bind_iff.2 ⟨(), last, hcolon, hitem⟩⟩

theorem reads_skipValue {depth : Nat} {tokens : List Token} {value : Value}
    (h : Denotes depth tokens value) {fuel : Nat} (hfuel : tokens.length ≤ fuel)
    {used rest : List Char} (hused : Spelled tokens used) (hrest : Delimits rest) :
    Reads (skipValue fuel : Reader σ Unit) (used ++ rest) () rest := by
  induction depth generalizing tokens value fuel used rest with
  | zero =>
      obtain ⟨token, rfl, htoken⟩ := h
      exact reads_skipValue_token htoken hfuel hused hrest
  | succ depth ih =>
      cases h with
      | scalar htoken => exact reads_skipValue_token htoken hfuel hused hrest
      | @array tokens items hitems =>
          simp only [List.length_cons, List.length_append, List.length_nil] at hfuel
          obtain ⟨fuel, rfl⟩ := Nat.exists_eq_succ_of_ne_zero (n := fuel) (by omega)
          obtain ⟨before, used, gap, hbefore, hused, hgap, htext⟩ :=
            exists_of_spelled_brackets hused
          have hread := @reads_skipItems σ _ _ (skipValue fuel) ']' (fun _ _ => Denotes.joined)
            (.inl rfl) _ _ hitems
            (fun inner a used rest hlength ha => ih ha (by omega)) used gap hused hgap '[' rest
          unfold skipValue
          rw [htext, reads_next?_bind_append_iff hbefore (by decide)]
          exact hread
      | @object tokens members hmembers =>
          simp only [List.length_cons, List.length_append, List.length_nil] at hfuel
          obtain ⟨fuel, rfl⟩ := Nat.exists_eq_succ_of_ne_zero (n := fuel) (by omega)
          obtain ⟨before, used, gap, hbefore, hused, hgap, htext⟩ :=
            exists_of_spelled_brackets hused
          have hread := @reads_skipItems σ _ _ (skipMember (skipValue fuel)) '}'
            (fun _ _ hmember => hmember.joined fun _ _ => Denotes.joined) (.inr rfl) _ _ hmembers
            (fun inner a used rest hlength ha hused hrest => by
              obtain ⟨others, last, middle, hvalue, hothers, hlast, hname, hcolon⟩ :=
                ha.exists_reads hused rest
              exact reads_skipMember hname hcolon (ih hvalue (by omega) hlast hrest))
            used gap hused hgap '{' rest
          unfold skipValue
          rw [htext, reads_next?_bind_append_iff hbefore (by decide)]
          exact hread

/-- What can be read as a value can be skipped. -/
theorem reads_skip {depth : Nat} {tokens : List Token} {value : Value}
    (h : Denotes depth tokens value) {used rest : List Char} (hused : Spelled tokens used)
    (hrest : Delimits rest) : Reads (skip : Reader σ Unit) (used ++ rest) () rest := by
  have hlength := length_le_of_spelled hused
  unfold skip
  rw [reads_get_bind_iff]
  refine reads_skipValue h ?_ hused hrest
  rw [List.length_append]
  omega

end Json

end ScopedCheck

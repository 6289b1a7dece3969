import ScopedCheck.Json.Printer
import ScopedCheck.Proofs.Json.Recognition
import ScopedCheck.Text.Lines

/-!
# What is printed is read back

Pretty text is one layout of the tokens of its value, so that reading it gives
the value again.
-/

namespace ScopedCheck

namespace Json

/-! ## Strings -/

theorem hexValue?_hexDigit : ∀ d < 16, hexValue? (hexDigit d) = some d := by
  decide

theorem isEscape_control {c : Char} (hc : c.toNat < 0x20) :
    IsEscape ['u', '0', '0', hexDigit (c.toNat / 16), hexDigit (c.toNat % 16)] c where
  escape?_append := by
    intro rest
    have hhigh := hexValue?_hexDigit (c.toNat / 16) (by omega)
    have hlow := hexValue?_hexDigit (c.toNat % 16) (by omega)
    have hdigits :
        hex4? ('0' :: '0' :: hexDigit (c.toNat / 16) :: hexDigit (c.toNat % 16) :: rest) =
          some (c.toNat, rest) := by
      have hzero : hexValue? '0' = some 0 := rfl
      have hsum : c.toNat / 16 * 16 + c.toNat % 16 = c.toNat := by omega
      simp [hex4?, hzero, hhigh, hlow, hsum]
    have hnoPair : ¬(decide (0xDC00 ≤ c.toNat) && decide (c.toNat ≤ 0xDFFF)) = true := by
      simp only [Bool.and_eq_true, decide_eq_true_eq]
      omega
    have hnoHigh : ¬(decide (0xD800 ≤ c.toNat) && decide (c.toNat ≤ 0xDBFF)) = true := by
      simp only [Bool.and_eq_true, decide_eq_true_eq]
      omega
    simp only [List.cons_append, List.nil_append, escape?, unicodeEscape?, hdigits]
    dsimp only [bind, Option.bind]
    rw [if_neg hnoPair, if_neg hnoHigh, Char.ofNat_toNat]
    rfl
  isBody := by
    intro raw hraw
    have hhigh := ne_of_hexValue? (c := hexDigit (c.toNat / 16)) (by
      rw [hexValue?_hexDigit _ (by omega)]
      rfl)
    have hlow := ne_of_hexValue? (c := hexDigit (c.toNat % 16)) (by
      rw [hexValue?_hexDigit _ (by omega)]
      rfl)
    exact .escaped 'u' (.plain (by decide) (by decide) (.plain (by decide) (by decide)
      (.plain hhigh.1 hhigh.2 (.plain hlow.1 hlow.2 hraw))))

theorem quoted_escapeChar (c : Char) {raw content : List Char} (h : Quoted raw content) :
    Quoted (escapeChar c ++ raw) (c :: content) := by
  have hshort : ∀ {e : Char}, shortEscape? e = some c →
      Quoted ('\\' :: ([e] ++ raw)) (c :: content) :=
    fun he => .escaped (shortEscape?_isEscape he) h
  unfold escapeChar
  split
  · exact hshort (by subst c; rfl)
  rename_i hquote
  split
  · exact hshort (by subst c; rfl)
  rename_i hslash
  split
  · exact hshort (by subst c; rfl)
  split
  · exact hshort (by subst c; rfl)
  split
  · exact hshort (by subst c; rfl)
  split
  · exact hshort (by subst c; rfl)
  split
  · exact hshort (by subst c; rfl)
  split
  · rename_i hcontrol
    exact .escaped (isEscape_control hcontrol) h
  · rename_i hcontrol
    exact .plain hquote hslash hcontrol h

theorem quoted_flatMap_escapeChar (content : List Char) :
    Quoted (content.flatMap escapeChar) content := by
  induction content with
  | nil => exact .nil
  | cons c content ih =>
      rw [List.flatMap_cons]
      exact quoted_escapeChar c ih

theorem stringLiteral_eq (text : String) :
    stringLiteral text = (Token.quoted (text.toList.flatMap escapeChar)).chars :=
  rfl

/-! ## Numbers -/

theorem isDigit_of_mem_digitsOf {n : Nat} : ∀ c ∈ Decimal.digitsOf n, c.isDigit = true :=
  fun _ hc => Nat.isDigit_of_mem_toDigits (by decide) (by decide) hc

theorem le_ofDigitChars (digits : List Char) (n : Nat) : n ≤ Nat.ofDigitChars 10 digits n := by
  induction digits generalizing n with
  | nil => exact Nat.le_refl n
  | cons c digits ih =>
      have hrest := ih (10 * n + (c.toNat - '0'.toNat))
      rw [Nat.ofDigitChars_cons]
      omega

theorem takeDigits_of_le {n : Nat} {digits : List Char} (hdigits : ∀ c ∈ digits, c.isDigit = true)
    (h : Nat.ofDigitChars 10 digits n ≤ maxInteger) :
    takeDigits n digits = (Nat.ofDigitChars 10 digits n, digits.length, []) := by
  induction digits generalizing n with
  | nil => rfl
  | cons c digits ih =>
      obtain ⟨hc, hrest⟩ := List.forall_mem_cons.1 hdigits
      rw [Nat.ofDigitChars_cons] at h ⊢
      have hextended : n * 10 + digitValue c = 10 * n + (c.toNat - '0'.toNat) := by
        rw [digitValue, Nat.mul_comm]
      have hfits := Nat.le_trans (le_ofDigitChars digits _) h
      rw [takeDigits]
      dsimp only
      rw [hextended, ih hrest h, if_pos (by rw [hc]; exact decide_eq_true hfits), List.length_cons]

/-- A number's first digit is no zero, unless it is the only one. -/
theorem eq_nil_of_toDigits {n : Nat} {digits : List Char} (h : Nat.toDigits 10 n = '0' :: digits) :
    digits = [] := by
  induction n using Nat.strongRecOn generalizing digits with
  | ind n ih =>
      rw [Nat.toDigits_eq_if (by decide)] at h
      split at h
      · exact (List.cons.inj h).2.symm
      · rename_i hlarge
        have hne : Nat.toDigits 10 (n / 10) ≠ [] := Nat.toDigits_ne_nil
        obtain ⟨c, front, hfront⟩ := List.exists_cons_of_ne_nil hne
        rw [hfront] at h
        obtain ⟨rfl, _⟩ := List.cons.inj h
        have hnil := ih (n / 10) (by omega) hfront
        rw [hnil] at hfront
        have hvalue := Nat.ofDigitChars_toDigits (b := 10) (n := n / 10) (by decide) (by decide)
        rw [hfront] at hvalue
        have hzero : Nat.ofDigitChars 10 ['0'] 0 = 0 := rfl
        omega

theorem reads_integer_of_delimits {negative : Bool} {n : Nat} {σ : Type} {after : List Char}
    (hafter : Delimits after) {found : Number}
    (h : Reads (integer negative n : Reader σ Number) after found after) :
    Reads (afterInteger negative n 0 : Reader σ Number) after found after := by
  unfold afterInteger
  rw [reads_get_bind_iff]
  split
  · exact absurd (hafter _ rfl) (by decide)
  · exact absurd (hafter _ rfl) (by decide)
  · exact absurd (hafter _ rfl) (by decide)
  · exact h

theorem reads_unsigned_digits {σ : Type} {n : Nat} (h : n ≤ maxInteger) {negative : Bool}
    {text after : List Char} (hafter : Delimits after) {found : Number}
    (hread : Reads (integer negative n : Reader σ Number) after found after) :
    Reads (unsigned negative (Decimal.digitsOf n ++ after) : Reader σ Number) text found after := by
  have hall : ∀ c ∈ Nat.toDigits 10 n, c.isDigit = true := isDigit_of_mem_digitsOf
  have hvalue := Nat.ofDigitChars_toDigits (b := 10) (n := n) (by decide) (by decide)
  unfold Decimal.digitsOf
  cases hdigits : Nat.toDigits 10 n with
  | nil => exact absurd hdigits Nat.toDigits_ne_nil
  | cons c digits =>
      rw [hdigits] at hall hvalue
      obtain ⟨hc, hrest⟩ := List.forall_mem_cons.1 hall
      have hn : Nat.ofDigitChars 10 digits (digitValue c) = n := by
        rw [Nat.ofDigitChars_cons] at hvalue
        simpa [digitValue] using hvalue
      refine (reads_unsigned_iff hc hrest hafter.startsWithDigit).2 ⟨?_, ?_⟩
      · rintro rfl
        exact eq_nil_of_toDigits hdigits
      · rw [takeDigits_of_le hrest (by rwa [hn]), hn]
        exact reads_integer_of_delimits hafter hread

/-- Integers that are read as what they are printed from. -/
def Number.Fits : Number → Prop
  | .int n => -(maxNegated : Int) ≤ n ∧ n ≤ maxInteger
  | .float _ => False

theorem isNumeral_digits {n : Nat} (h : n ≤ maxInteger) :
    IsNumeral (Decimal.digitsOf n) (.int n) := by
  intro σ after hafter
  have hhead : (Decimal.digitsOf n ++ after).head? ≠ some '-' := by
    intro hminus
    cases hdigits : Decimal.digitsOf n with
    | nil => exact absurd hdigits Nat.toDigits_ne_nil
    | cons c digits =>
        have hc : c.isDigit = true := isDigit_of_mem_digitsOf c (hdigits ▸ List.mem_cons_self)
        rw [hdigits] at hminus
        obtain rfl := Option.some.inj hminus
        cases hc
  exact (reads_number_iff hhead).2 (reads_unsigned_digits h hafter (reads_pure_iff.2 ⟨rfl, rfl⟩))

theorem isNumeral_minus {n : Nat} (hpos : 0 < n) (h : n ≤ maxNegated) :
    IsNumeral ('-' :: Decimal.digitsOf n) (.int (-n)) := by
  intro σ after hafter
  have hfits : n ≤ maxInteger := Nat.le_trans h (by decide)
  have hinteger : Reads (integer true n : Reader σ Number) after (.int (-n)) after := by
    unfold integer
    rw [if_neg (by simp), if_pos (by simp [hpos, h])]
    exact reads_pure_iff.2 ⟨rfl, rfl⟩
  exact reads_number_minus_iff.2 (reads_unsigned_digits hfits hafter hinteger)

theorem scalar_number {n : Number} (h : n.Fits) : Scalar (.word n.text) (.number n) := by
  cases n with
  | float x => exact absurd h id
  | int value =>
      obtain ⟨hleast, hgreatest⟩ := h
      rw [Number.text]
      split
      · rename_i hneg
        have hnumeral := isNumeral_minus (n := value.natAbs) (by omega) (by omega)
        rw [show -(value.natAbs : Int) = value by omega] at hnumeral
        exact .number (.inl rfl) (fun d hd => isWordChar_of_isDigit (isDigit_of_mem_digitsOf d hd))
          hnumeral
      · rename_i hneg
        have hnumeral := isNumeral_digits (n := value.natAbs) (by omega)
        have hall := isDigit_of_mem_digitsOf (n := value.natAbs)
        rw [show (value.natAbs : Int) = value by omega] at hnumeral
        cases hdigits : Decimal.digitsOf value.natAbs with
        | nil => exact absurd hdigits Nat.toDigits_ne_nil
        | cons c digits =>
            rw [hdigits] at hnumeral hall
            obtain ⟨hc, hrest⟩ := List.forall_mem_cons.1 hall
            exact .number (.inr hc) (fun d hd => isWordChar_of_isDigit (hrest d hd)) hnumeral

/-! ## Layout -/

/-- Values of integers that fit, with at most `depth` containers inside one another. -/
def Value.Fits : Nat → Value → Prop
  | _, .null => True
  | _, .bool _ => True
  | _, .number n => n.Fits
  | _, .string _ => True
  | 0, .array _ => False
  | 0, .object _ => False
  | depth + 1, .array items => ∀ item ∈ items, item.Fits depth
  | depth + 1, .object members => ∀ member ∈ members, member.2.Fits depth

theorem isBlank_newline (level : Nat) : IsBlank (newline level) := by
  refine List.forall_mem_cons.2 ⟨rfl, fun c hc => ?_⟩
  rw [List.eq_of_mem_replicate hc]
  rfl

theorem denotes_scalar {token : Token} {value : Value} (h : Scalar token value) (depth : Nat) :
    Denotes depth [token] value := by
  cases depth with
  | zero => exact ⟨token, rfl, h⟩
  | succ depth => exact .scalar h

theorem prettyItems_eq (level : Nat) (items : List Value) :
    prettyItems level items =
      Text.joinWith [','] (items.map fun item => newline level ++ item.prettyChars level) := by
  induction items with
  | nil => rfl
  | cons item items ih =>
      cases items with
      | nil => rfl
      | cons next items =>
          rw [prettyItems, ih]
          · simp [Text.joinWith]
          · exact List.cons_ne_nil _ _

theorem prettyMembers_eq (level : Nat) (members : List (String × Value)) :
    prettyMembers level members = Text.joinWith [','] (members.map fun member =>
      newline level ++ stringLiteral member.1 ++ [':', ' '] ++ member.2.prettyChars level) := by
  induction members with
  | nil => rfl
  | cons member members ih =>
      cases members with
      | nil => rfl
      | cons next members =>
          obtain ⟨name, value⟩ := member
          rw [prettyMembers, ih]
          · simp [Text.joinWith]
          · exact List.cons_ne_nil _ _

theorem spelled_joinWith {α : Type} {item : List Token → α → Prop} {write : α → List Char}
    {found : List α}
    (h : ∀ a ∈ found, ∃ tokens, Spelled tokens (write a) ∧ item tokens a) :
    ∃ tokens, Spelled tokens (Text.joinWith [','] (found.map write)) ∧
      Listed item tokens found := by
  induction found with
  | nil => exact ⟨[], rfl, .nil⟩
  | cons a found ih =>
      obtain ⟨⟨tokens, hspelled, ha⟩, hfound⟩ := List.forall_mem_cons.1 h
      obtain ⟨others, hothers, hlisted⟩ := ih hfound
      cases hlisted with
      | nil => exact ⟨tokens ++ [], by rwa [List.append_nil], .cons ha .nil⟩
      | cons hb hrest =>
          refine ⟨_, ?_, .cons ha (.cons hb hrest)⟩
          have hcomma := @spelled_mark ',' rfl [] isBlank_nil _ _ hothers
          have hlaid := hspelled.append hcomma
          simpa [Text.joinWith] using hlaid

theorem spelled_brackets {opening closing : Char} (hopening : isMark opening = true)
    (hclosing : isMark closing = true) {tokens : List Token} {used gap : List Char}
    (hused : Spelled tokens used) (hgap : IsBlank gap) :
    Spelled (.mark opening :: (tokens ++ [.mark closing]))
      (opening :: used ++ gap ++ [closing]) := by
  have hspelled := spelled_mark hopening isBlank_nil (spelled_concat hused hgap hclosing)
  simpa using hspelled

theorem prettyChars_cases {depth : Nat} {value : Value} (h : value.Fits depth) :
    (∃ token, Scalar token value ∧ ∀ level, value.prettyChars level = token.chars) ∨
      (∃ items, value = .array items) ∨ ∃ members, value = .object members := by
  cases value with
  | null => exact .inl ⟨_, .null, fun _ => by rw [Value.prettyChars, Token.chars]⟩
  | bool value =>
      cases value with
      | true => exact .inl ⟨_, .yes, fun _ => by rw [Value.prettyChars, Token.chars]; rfl⟩
      | false => exact .inl ⟨_, .no, fun _ => by rw [Value.prettyChars, Token.chars]; rfl⟩
  | number n =>
      have hn : n.Fits := by
        cases depth <;> exact h
      exact .inl ⟨_, scalar_number hn, fun _ => by rw [Value.prettyChars, Token.chars]⟩
  | string text =>
      refine .inl ⟨_, .string (quoted_flatMap_escapeChar text.toList), fun _ => ?_⟩
      rw [Value.prettyChars, stringLiteral_eq]
  | array items => exact .inr (.inl ⟨items, rfl⟩)
  | object members => exact .inr (.inr ⟨members, rfl⟩)

theorem prettyChars_array (level : Nat) (items : List Value) :
    ∃ gap, IsBlank gap ∧ (Value.array items).prettyChars level =
      '[' :: prettyItems (level + 1) items ++ gap ++ [']'] := by
  cases items with
  | nil => exact ⟨[], isBlank_nil, by rw [Value.prettyChars, prettyItems]; rfl⟩
  | cons item items => exact ⟨newline level, isBlank_newline level, by rw [Value.prettyChars]⟩

theorem prettyChars_object (level : Nat) (members : List (String × Value)) :
    ∃ gap, IsBlank gap ∧ (Value.object members).prettyChars level =
      '{' :: prettyMembers (level + 1) members ++ gap ++ ['}'] := by
  cases members with
  | nil => exact ⟨[], isBlank_nil, by rw [Value.prettyChars, prettyMembers]; rfl⟩
  | cons member members => exact ⟨newline level, isBlank_newline level, by rw [Value.prettyChars]⟩

theorem spelled_member {inner : List Token → Value → Prop} {name : String} {value : Value}
    {tokens : List Token} {used : List Char} (hused : Spelled tokens used)
    (hvalue : inner tokens value) {gap : List Char} (hgap : IsBlank gap) (hne : tokens ≠ []) :
    ∃ others, Spelled others (gap ++ stringLiteral name ++ [':', ' '] ++ used) ∧
      Member inner others (name, value) := by
  have hraw := quoted_flatMap_escapeChar name.toList
  have hname : Token.IsValid (.quoted (name.toList.flatMap escapeChar)) := hraw.isBody
  have hspace : IsBlank [' '] := List.forall_mem_singleton.2 rfl
  have hcolon := @spelled_mark ':' rfl [] isBlank_nil _ _ (blank_append hne hused hspace)
  refine ⟨_, ?_, .mk hraw hvalue⟩
  have hspelled := laid_cons hgap hname hcolon
  simpa [stringLiteral_eq] using hspelled

theorem spelled_pretty {depth : Nat} {value : Value} (h : value.Fits depth) (level : Nat) :
    ∃ tokens, Spelled tokens (value.prettyChars level) ∧ Denotes depth tokens value := by
  induction depth generalizing value level with
  | zero =>
      obtain ⟨token, hscalar, hchars⟩ | ⟨items, rfl⟩ | ⟨members, rfl⟩ := prettyChars_cases h
      · have hspelled := spelled_singleton hscalar.isValid isBlank_nil
        exact ⟨[token], by rwa [hchars], denotes_scalar hscalar 0⟩
      · exact absurd h id
      · exact absurd h id
  | succ depth ih =>
      obtain ⟨token, hscalar, hchars⟩ | ⟨items, rfl⟩ | ⟨members, rfl⟩ := prettyChars_cases h
      · have hspelled := spelled_singleton hscalar.isValid isBlank_nil
        exact ⟨[token], by rwa [hchars], denotes_scalar hscalar (depth + 1)⟩
      · have hitems : ∀ item ∈ items, ∃ tokens,
            Spelled tokens (newline (level + 1) ++ item.prettyChars (level + 1)) ∧
              Denotes depth tokens item := by
          intro item hitem
          obtain ⟨tokens, hspelled, hdenotes⟩ := ih (h item hitem) (level + 1)
          exact ⟨tokens, blank_append hdenotes.joined.ne_nil hspelled (isBlank_newline (level + 1)),
            hdenotes⟩
        obtain ⟨tokens, hspelled, hlisted⟩ := spelled_joinWith hitems
        rw [← prettyItems_eq] at hspelled
        obtain ⟨gap, hgap, hchars⟩ := prettyChars_array level items
        exact ⟨_, hchars ▸ spelled_brackets rfl rfl hspelled hgap, .array hlisted⟩
      · have hmembers : ∀ member ∈ members, ∃ tokens,
            Spelled tokens (newline (level + 1) ++ stringLiteral member.1 ++ [':', ' '] ++
              member.2.prettyChars (level + 1)) ∧ Member (Denotes depth) tokens member := by
          intro member hmember
          obtain ⟨tokens, hspelled, hdenotes⟩ := ih (h member hmember) (level + 1)
          exact spelled_member hspelled hdenotes (isBlank_newline (level + 1))
            hdenotes.joined.ne_nil
        obtain ⟨tokens, hspelled, hlisted⟩ := spelled_joinWith hmembers
        rw [← prettyMembers_eq] at hspelled
        obtain ⟨gap, hgap, hchars⟩ := prettyChars_object level members
        exact ⟨_, hchars ▸ spelled_brackets rfl rfl hspelled hgap, .object hlisted⟩

/-- Printing loses nothing. -/
theorem parse?_pretty {value : Value} (h : value.Fits maxDepth) {after : List Char}
    (hafter : IsBlank after) : parse? (value.pretty ++ String.ofList after) = some value := by
  obtain ⟨tokens, hspelled, hdenotes⟩ := spelled_pretty h 0
  refine parse?_eq_some_iff.2 ⟨tokens, ?_, hdenotes⟩
  have hlaid : Laid IsBlank IsBlank (tokens ++ []) (value.prettyChars 0 ++ after) :=
    hspelled.append hafter
  rw [List.append_nil] at hlaid
  simpa [Value.pretty] using hlaid

end Json

end ScopedCheck

import Mathlib.Data.List.Chain
import ScopedCheck.Json.Reader

/-!
# Tokens of JSON text

A text is laid out from tokens with gaps around them.  With white space as the
gaps, and no two words side by side, a text has one sequence of tokens.
-/

namespace ScopedCheck

namespace Json

/-- The least parts of a JSON text. -/
inductive Token where
  /-- A bracket, a comma or a colon. -/
  | mark (c : Char)
  /-- A string by what is written between its quotes. -/
  | quoted (body : List Char)
  /-- A number, or one of the names of values. -/
  | word (letters : List Char)
  deriving DecidableEq, Repr

def isMark (c : Char) : Bool :=
  c == '[' || c == ']' || c == '{' || c == '}' || c == ',' || c == ':'

/-- The characters that numbers and names of values are made of. -/
def isWordChar (c : Char) : Bool :=
  c.isAlphanum || c == '+' || c == '-' || c == '.'

/-- What may be written between two quotes: a quote only behind a backslash. -/
inductive IsBody : List Char → Prop
  | nil : IsBody []
  | plain {c : Char} {rest : List Char} (hquote : c ≠ '"') (hslash : c ≠ '\\')
      (hrest : IsBody rest) : IsBody (c :: rest)
  | escaped (c : Char) {rest : List Char} (hrest : IsBody rest) : IsBody ('\\' :: c :: rest)

namespace Token

def chars : Token → List Char
  | mark c => [c]
  | quoted body => '"' :: (body ++ ['"'])
  | word letters => letters

def IsValid : Token → Prop
  | mark c => isMark c = true
  | quoted body => IsBody body
  | word letters => letters ≠ [] ∧ ∀ c ∈ letters, isWordChar c = true

def isWord : Token → Bool
  | word _ => true
  | _ => false

def opens (token : Token) : Bool :=
  token == mark '[' || token == mark '{'

def closes (token : Token) : Bool :=
  token == mark ']' || token == mark '}'

end Token

/-! ## Layouts -/

/-- White space, any amount of it. -/
def IsBlank (text : List Char) : Prop :=
  ∀ c ∈ text, isSpace c = true

/-- Tokens one after the other, each behind a gap; `last` is what may follow the last one. -/
def Laid (gap last : List Char → Prop) : List Token → List Char → Prop
  | [], text => last text
  | token :: tokens, text =>
      ∃ before rest, gap before ∧ token.IsValid ∧ Laid gap last tokens rest ∧
        text = before ++ (token.chars ++ rest)

/-- Tokens with white space before each and nothing after the last. -/
abbrev Spelled : List Token → List Char → Prop :=
  Laid IsBlank (· = [])

/-- Whether no two words stand side by side. -/
def Parted (tokens : List Token) : Prop :=
  tokens.IsChain fun a b => ¬(a.isWord = true ∧ b.isWord = true)

instance (tokens : List Token) : Decidable (Parted tokens) :=
  inferInstanceAs (Decidable (tokens.IsChain fun a b => ¬(a.isWord = true ∧ b.isWord = true)))

/-- Whether a word that ends before a text cannot go on in it. -/
def Delimits (rest : List Char) : Prop :=
  ∀ c ∈ rest.head?, isWordChar c = false

variable {gap last : List Char → Prop}

theorem laid_cons {before rest : List Char} {token : Token} {tokens : List Token}
    (hbefore : gap before) (htoken : token.IsValid) (hrest : Laid gap last tokens rest) :
    Laid gap last (token :: tokens) (before ++ (token.chars ++ rest)) :=
  ⟨before, rest, hbefore, htoken, hrest, rfl⟩

theorem Laid.mono {gap' last' : List Char → Prop} (hgap : ∀ text, gap text → gap' text)
    (hlast : ∀ text, last text → last' text) {tokens : List Token} {text : List Char}
    (h : Laid gap last tokens text) : Laid gap' last' tokens text := by
  induction tokens generalizing text with
  | nil => exact hlast text h
  | cons token tokens ih =>
      obtain ⟨before, rest, hbefore, htoken, hrest, rfl⟩ := h
      exact laid_cons (hgap before hbefore) htoken (ih hrest)

theorem Laid.append {tokens others : List Token} {a b : List Char}
    (ha : Laid gap (· = []) tokens a) (hb : Laid gap last others b) :
    Laid gap last (tokens ++ others) (a ++ b) := by
  induction tokens generalizing a with
  | nil =>
      have hnil : a = [] := ha
      rw [hnil]
      exact hb
  | cons token tokens ih =>
      obtain ⟨before, rest, hbefore, htoken, hrest, rfl⟩ := ha
      refine ⟨before, rest ++ b, hbefore, htoken, ih hrest, ?_⟩
      simp only [List.append_assoc]

theorem Laid.split {tokens others : List Token} {text : List Char}
    (h : Laid gap last (tokens ++ others) text) :
    ∃ a b, Laid gap (· = []) tokens a ∧ Laid gap last others b ∧ text = a ++ b := by
  induction tokens generalizing text with
  | nil => exact ⟨[], text, rfl, h, rfl⟩
  | cons token tokens ih =>
      obtain ⟨before, rest, hbefore, htoken, hrest, rfl⟩ := h
      obtain ⟨a, b, ha, hb, rfl⟩ := ih hrest
      refine ⟨before ++ (token.chars ++ a), b, ⟨before, a, hbefore, htoken, ha, rfl⟩, hb, ?_⟩
      simp only [List.append_assoc]

theorem spelled_singleton {token : Token} (h : token.IsValid) {before : List Char}
    (hbefore : IsBlank before) : Spelled [token] (before ++ token.chars) :=
  ⟨before, [], hbefore, h, rfl, by rw [List.append_nil]⟩

/-! ## How a token begins -/

theorem isBlank_nil : IsBlank [] := by
  intro c hc
  exact absurd hc List.not_mem_nil

theorem exists_blank_append (text : List Char) :
    ∃ before left, text = before ++ left ∧ IsBlank before ∧ text.dropWhile isSpace = left ∧
      ∀ c ∈ left.head?, isSpace c = false := by
  refine ⟨text.takeWhile isSpace, text.dropWhile isSpace, List.takeWhile_append_dropWhile.symm,
    fun c hc => List.all_eq_true.1 List.all_takeWhile c hc, rfl, fun c hc => ?_⟩
  have hhead := List.head?_dropWhile_not isSpace text
  rw [hc] at hhead
  exact hhead

theorem dropWhile_blank_append {before : List Char} (hbefore : IsBlank before) {c : Char}
    (hc : isSpace c = false) (rest : List Char) :
    (before ++ c :: rest).dropWhile isSpace = c :: rest := by
  rw [List.dropWhile_append_of_pos hbefore, List.dropWhile_cons_of_neg (by simp [hc])]

theorem IsBlank.append {a b : List Char} (ha : IsBlank a) (hb : IsBlank b) : IsBlank (a ++ b) :=
  List.forall_mem_append.2 ⟨ha, hb⟩

theorem isSpace_of_isWordChar {c : Char} (h : isWordChar c = true) : isSpace c = false := by
  rw [Bool.eq_false_iff]
  intro hspace
  simp only [isSpace, Bool.or_eq_true, beq_iff_eq] at hspace
  rcases hspace with ((rfl | rfl) | rfl) | rfl <;> exact absurd h (by decide)

theorem isSpace_of_isMark {c : Char} (h : isMark c = true) : isSpace c = false := by
  rw [Bool.eq_false_iff]
  intro hspace
  simp only [isSpace, Bool.or_eq_true, beq_iff_eq] at hspace
  rcases hspace with ((rfl | rfl) | rfl) | rfl <;> exact absurd h (by decide)

theorem isWordChar_of_isMark {c : Char} (h : isMark c = true) : isWordChar c = false := by
  simp only [isMark, Bool.or_eq_true, beq_iff_eq] at h
  rcases h with ((((rfl | rfl) | rfl) | rfl) | rfl) | rfl <;> decide

theorem isWordChar_of_isSpace {c : Char} (h : isSpace c = true) : isWordChar c = false := by
  rw [Bool.eq_false_iff]
  intro hword
  rw [isSpace_of_isWordChar hword] at h
  cases h

/-- A token begins with no white space, and its first character tells whether it is a word. -/
theorem Token.IsValid.chars_eq_cons {token : Token} (h : token.IsValid) :
    ∃ c rest, token.chars = c :: rest ∧ isSpace c = false ∧ isWordChar c = token.isWord := by
  cases token with
  | mark c => exact ⟨c, [], rfl, isSpace_of_isMark h, isWordChar_of_isMark h⟩
  | quoted body => exact ⟨'"', body ++ ['"'], rfl, by decide, rfl⟩
  | word letters =>
      obtain ⟨hne, hletters⟩ := h
      obtain ⟨c, rest, rfl⟩ := List.exists_cons_of_ne_nil hne
      have hc := hletters c List.mem_cons_self
      exact ⟨c, rest, rfl, isSpace_of_isWordChar hc, hc⟩

theorem dropWhile_isSpace {token : Token} (h : token.IsValid) {before : List Char}
    (hbefore : IsBlank before) (rest : List Char) :
    (before ++ (token.chars ++ rest)).dropWhile isSpace = token.chars ++ rest := by
  obtain ⟨c, letters, hchars, hc, _⟩ := h.chars_eq_cons
  rw [hchars, List.cons_append, dropWhile_blank_append hbefore hc]

theorem delimits_of_isBlank {text : List Char} (h : IsBlank text) : Delimits text := by
  intro c hc
  exact isWordChar_of_isSpace (h c (List.mem_of_mem_head? hc))

theorem delimits_of_laid {tokens : List Token} {text : List Char}
    (hlast : ∀ rest, last rest → Delimits rest) (h : Laid IsBlank last tokens text)
    (hhead : ∀ token ∈ tokens.head?, token.isWord = false) : Delimits text := by
  cases tokens with
  | nil => exact hlast text h
  | cons token tokens =>
      obtain ⟨before, rest, hbefore, htoken, _, rfl⟩ := h
      intro found hfound
      cases before with
      | cons c before =>
          obtain rfl := Option.some.inj hfound
          exact isWordChar_of_isSpace (hbefore c List.mem_cons_self)
      | nil =>
          obtain ⟨c, letters, hchars, _, hword⟩ := htoken.chars_eq_cons
          rw [hchars] at hfound
          obtain rfl := Option.some.inj hfound
          rw [hword, hhead token rfl]

/-! ## Marks and white space between spelled tokens -/

theorem length_le_of_spelled {tokens : List Token} {used : List Char} (h : Spelled tokens used) :
    tokens.length ≤ used.length := by
  induction tokens generalizing used with
  | nil => exact Nat.zero_le _
  | cons token tokens ih =>
      obtain ⟨before, rest, _, htoken, hrest, rfl⟩ := h
      obtain ⟨c, letters, hchars, _⟩ := htoken.chars_eq_cons
      have hlength := ih hrest
      simp only [hchars, List.length_append, List.length_cons]
      omega

theorem delimits_append {tokens : List Token} {used after : List Char}
    (h : Spelled tokens used) (hhead : ∀ token ∈ tokens.head?, token.isWord = false)
    (hafter : Delimits after) : Delimits (used ++ after) := by
  have hlaid : Laid IsBlank Delimits (tokens ++ []) (used ++ after) := Laid.append h hafter
  rw [List.append_nil] at hlaid
  exact delimits_of_laid (fun _ hrest => hrest) hlaid hhead

theorem spelled_mark {c : Char} (hc : isMark c = true) {before : List Char}
    (hbefore : IsBlank before) {tokens : List Token} {used : List Char}
    (hused : Spelled tokens used) : Spelled (.mark c :: tokens) (before ++ c :: used) :=
  ⟨before, used, hbefore, hc, hused, rfl⟩

theorem blank_append {last : List Char → Prop} {tokens : List Token} (hne : tokens ≠ [])
    {text : List Char} (h : Laid IsBlank last tokens text) {before : List Char}
    (hbefore : IsBlank before) : Laid IsBlank last tokens (before ++ text) := by
  obtain ⟨token, tokens, rfl⟩ := List.exists_cons_of_ne_nil hne
  obtain ⟨gap, rest, hgap, htoken, hrest, rfl⟩ := h
  exact ⟨before ++ gap, rest, hbefore.append hgap, htoken, hrest, by rw [List.append_assoc]⟩

theorem spelled_concat {tokens : List Token} {used gap : List Char} (hused : Spelled tokens used)
    (hgap : IsBlank gap) {c : Char} (hc : isMark c = true) :
    Spelled (tokens ++ [.mark c]) (used ++ (gap ++ [c])) :=
  hused.append (spelled_mark hc hgap rfl)

theorem exists_of_spelled_concat {tokens : List Token} {c : Char} {text : List Char}
    (h : Spelled (tokens ++ [.mark c]) text) :
    ∃ used gap, Spelled tokens used ∧ IsBlank gap ∧ text = used ++ (gap ++ [c]) := by
  obtain ⟨used, _, hused, ⟨gap, _, hgap, _, rfl, rfl⟩, rfl⟩ := h.split
  exact ⟨used, gap, hused, hgap, rfl⟩

/-- What is between two brackets, and the text that goes on behind the second one. -/
theorem exists_of_spelled_brackets {opening closing : Char} {tokens : List Token}
    {text : List Char} (h : Spelled (.mark opening :: (tokens ++ [.mark closing])) text) :
    ∃ before used gap, IsBlank before ∧ Spelled tokens used ∧ IsBlank gap ∧
      ∀ rest, text ++ rest = before ++ opening :: (used ++ (gap ++ closing :: rest)) := by
  obtain ⟨before, _, hbefore, _, hbehind, rfl⟩ := h
  obtain ⟨used, gap, hused, hgap, rfl⟩ := exists_of_spelled_concat hbehind
  refine ⟨before, used, gap, hbefore, hused, hgap, fun rest => ?_⟩
  simp only [Token.chars, List.append_assoc, List.cons_append, List.nil_append]

/-! ## One sequence of tokens -/

/-- A string ends at its first quote that stands behind no backslash. -/
theorem IsBody.unique {a b : List Char} (ha : IsBody a) (hb : IsBody b) {rest others : List Char}
    (h : a ++ '"' :: rest = b ++ '"' :: others) : a = b ∧ rest = others := by
  induction ha generalizing b with
  | nil =>
      cases hb with
      | nil => exact ⟨rfl, (List.cons.inj h).2⟩
      | plain hquote _ _ => exact absurd (List.cons.inj h).1.symm hquote
      | escaped c _ => exact absurd (List.cons.inj h).1 (by decide)
  | plain hquote hslash _ ih =>
      cases hb with
      | nil => exact absurd (List.cons.inj h).1 hquote
      | plain _ _ hb =>
          obtain ⟨rfl, htail⟩ := List.cons.inj h
          obtain ⟨rfl, hrest⟩ := ih hb htail
          exact ⟨rfl, hrest⟩
      | escaped c _ => exact absurd (List.cons.inj h).1 hslash
  | escaped c _ ih =>
      cases hb with
      | nil => exact absurd (List.cons.inj h).1 (by decide)
      | plain _ hslash _ => exact absurd (List.cons.inj h).1.symm hslash
      | escaped d hb =>
          obtain ⟨rfl, htail⟩ := List.cons.inj (List.cons.inj h).2
          obtain ⟨rfl, hrest⟩ := ih hb htail
          exact ⟨rfl, hrest⟩

/-- Where the first character stands that is not of a kind. -/
theorem eq_of_spans {p : Char → Bool} {a b rest others : List Char} (ha : ∀ c ∈ a, p c = true)
    (hb : ∀ c ∈ b, p c = true) (hrest : ∀ c ∈ rest.head?, p c = false)
    (hothers : ∀ c ∈ others.head?, p c = false) (h : a ++ rest = b ++ others) :
    a = b ∧ rest = others := by
  have htake : ∀ {letters after : List Char}, (∀ c ∈ letters, p c = true) →
      (∀ c ∈ after.head?, p c = false) → (letters ++ after).takeWhile p = letters := by
    intro letters after hletters hafter
    rw [List.takeWhile_append_of_pos hletters]
    cases after with
    | nil => simp
    | cons c after => simp [hafter c rfl]
  have hspan : a = b := by
    rw [← htake ha hrest, h, htake hb hothers]
  subst hspan
  exact ⟨rfl, List.append_cancel_left h⟩

theorem Token.eq_of_chars_append {token other : Token} (htoken : token.IsValid)
    (hother : other.IsValid) {rest others : List Char}
    (hrest : token.isWord = true → Delimits rest) (hothers : other.isWord = true → Delimits others)
    (h : token.chars ++ rest = other.chars ++ others) : token = other ∧ rest = others := by
  have hquote : isMark '"' = false := by decide
  have hkind : token.isWord = other.isWord := by
    obtain ⟨c, letters, hchars, _, hword⟩ := htoken.chars_eq_cons
    obtain ⟨d, written, hwritten, _, hotherWord⟩ := hother.chars_eq_cons
    rw [hchars, hwritten] at h
    rw [← hword, ← hotherWord, (List.cons.inj h).1]
  cases token with
  | mark c =>
      cases other with
      | mark d =>
          obtain ⟨rfl, htail⟩ := List.cons.inj h
          exact ⟨rfl, htail⟩
      | quoted body =>
          rw [IsValid, (List.cons.inj h).1, hquote] at htoken
          cases htoken
      | word letters => cases hkind
  | quoted body =>
      cases other with
      | mark d =>
          rw [IsValid, ← (List.cons.inj h).1, hquote] at hother
          cases hother
      | quoted written =>
          simp only [chars, List.cons_append, List.append_assoc, List.nil_append,
            List.cons.injEq, true_and] at h
          obtain ⟨rfl, hafter⟩ := IsBody.unique htoken hother h
          exact ⟨rfl, hafter⟩
      | word letters => cases hkind
  | word letters =>
      cases other with
      | mark d => cases hkind
      | quoted body => cases hkind
      | word written =>
          obtain ⟨rfl, hafter⟩ := eq_of_spans htoken.2 hother.2 (hrest rfl) (hothers rfl) h
          exact ⟨rfl, hafter⟩

/-- A text is laid out from one sequence of tokens. -/
theorem Laid.unique {tokens others : List Token} {text : List Char}
    (htokens : Parted tokens) (hothers : Parted others)
    (h : Laid IsBlank IsBlank tokens text) (h' : Laid IsBlank IsBlank others text) :
    tokens = others := by
  have hend : ∀ {token : Token} {before rest : List Char}, token.IsValid →
      ¬ IsBlank (before ++ (token.chars ++ rest)) := by
    intro token before rest htoken hblank
    obtain ⟨c, letters, hchars, hc, _⟩ := htoken.chars_eq_cons
    have hspace := hblank c (by simp [hchars])
    rw [hc] at hspace
    cases hspace
  induction tokens generalizing others text with
  | nil =>
      cases others with
      | nil => rfl
      | cons other others =>
          obtain ⟨before, rest, _, hother, _, rfl⟩ := h'
          exact absurd h (hend hother)
  | cons token tokens ih =>
      obtain ⟨before, rest, hbefore, htoken, hrest, rfl⟩ := h
      cases others with
      | nil => exact absurd h' (hend htoken)
      | cons other others =>
          obtain ⟨gap, after, hgap, hother, hafter, heq⟩ := h'
          obtain ⟨hnext, hpartedRest⟩ := List.isChain_cons.1 htokens
          obtain ⟨hnextOther, hpartedOther⟩ := List.isChain_cons.1 hothers
          have hdelimits : token.isWord = true → Delimits rest := fun hword =>
            delimits_of_laid (fun _ => delimits_of_isBlank) hrest fun next hmem =>
              Bool.eq_false_iff.2 fun hn => hnext next hmem ⟨hword, hn⟩
          have hdelimitsOther : other.isWord = true → Delimits after := fun hword =>
            delimits_of_laid (fun _ => delimits_of_isBlank) hafter fun next hmem =>
              Bool.eq_false_iff.2 fun hn => hnextOther next hmem ⟨hword, hn⟩
          have hchars : token.chars ++ rest = other.chars ++ after := by
            rw [← dropWhile_isSpace htoken hbefore, heq, dropWhile_isSpace hother hgap]
          obtain ⟨rfl, rfl⟩ :=
            Token.eq_of_chars_append htoken hother hdelimits hdelimitsOther hchars
          rw [ih hpartedRest hpartedOther hrest hafter]

end Json

end ScopedCheck

import ScopedCheck.Json.Tolerant
import ScopedCheck.Proofs.Json.Recognition

/-!
# Comments and trailing commas

A decorated text is laid out with comments in its gaps and with commas before
closing brackets.  What is taken away of a comment leaves white space, tokens are
kept, and the commas that are dropped are those that were added.
-/

namespace ScopedCheck

namespace Json

inductive Trivia : List Char → Prop
  | nil : Trivia []
  | blank {c : Char} {rest : List Char} (hc : isSpace c = true) (hrest : Trivia rest) :
      Trivia (c :: rest)
  | block {body rest : List Char} (hbody : ¬ ['*', '/'] <:+: body) (hrest : Trivia rest) :
      Trivia ('/' :: '*' :: (body ++ '*' :: '/' :: rest))
  | line {body rest : List Char} (hbody : '\n' ∉ body) (hrest : Trivia rest) :
      Trivia ('/' :: '/' :: (body ++ '\n' :: rest))

/-- White space and comments at the end of a text, which may end a line comment. -/
inductive LastTrivia : List Char → Prop
  | ended {text : List Char} (h : Trivia text) : LastTrivia text
  | unfinished {text body : List Char} (h : Trivia text) (hbody : '\n' ∉ body) :
      LastTrivia (text ++ '/' :: '/' :: body)

/-- Tokens with at most one more comma before each bracket that closes some contents. -/
inductive Trailing : List Token → List Token → Prop
  | nil : Trailing [] []
  | keep (token : Token) {tokens others : List Token} (h : Trailing tokens others) :
      Trailing (token :: tokens) (token :: others)
  | comma {token closing : Token} {tokens others : List Token} (hopens : token.opens = false)
      (hcloses : closing.closes = true) (h : Trailing (closing :: tokens) (closing :: others)) :
      Trailing (token :: closing :: tokens) (token :: .mark ',' :: closing :: others)

/-- Tokens with at most one more comma before each closing bracket, contents or not. -/
inductive Padded : List Token → List Token → Prop
  | nil : Padded [] []
  | keep (token : Token) {tokens others : List Token} (h : Padded tokens others) :
      Padded (token :: tokens) (token :: others)
  | comma {closing : Token} {tokens others : List Token} (hcloses : closing.closes = true)
      (h : Padded tokens others) : Padded (closing :: tokens) (.mark ',' :: closing :: others)

/-- Texts that differ from a layout of some tokens by comments and trailing commas. -/
def Decorated (tokens : List Token) (text : List Char) : Prop :=
  ∃ others, Trailing tokens others ∧ Laid Trivia LastTrivia others text

theorem Trivia.of_isBlank {text : List Char} (h : IsBlank text) : Trivia text := by
  induction text with
  | nil => exact .nil
  | cons c text ih =>
      obtain ⟨hc, htext⟩ := List.forall_mem_cons.1 h
      exact .blank hc (ih htext)

theorem Trailing.refl (tokens : List Token) : Trailing tokens tokens := by
  induction tokens with
  | nil => exact .nil
  | cons token tokens ih => exact .keep token ih

theorem ne_of_true_of_false {p : Char → Bool} {c d : Char} (hc : p c = true) (hd : p d = false) :
    c ≠ d := by
  rintro rfl
  rw [hc] at hd
  cases hd

/-! ## Strings -/

/-- Scans that copy strings: one inside them, one behind a backslash, one behind the last quote. -/
structure CopiesStrings (string escaped code : List Char → List Char) : Prop where
  string_nil : string [] = []
  string_cons : ∀ c rest, string (c :: rest) =
    c :: if c = '"' then code rest else if c = '\\' then escaped rest else string rest
  escaped_nil : escaped [] = []
  escaped_cons : ∀ c rest, escaped (c :: rest) = c :: string rest

theorem CopiesStrings.string_eq_append_iff {string escaped code : List Char → List Char}
    (h : CopiesStrings string escaped code) {body : List Char} (hbody : IsBody body)
    {text out : List Char} :
    string text = body ++ '"' :: out ↔ ∃ rest, text = body ++ '"' :: rest ∧ code rest = out := by
  induction hbody generalizing text with
  | nil =>
      cases text with
      | nil => simp [h.string_nil]
      | cons c rest =>
          rw [h.string_cons, List.nil_append]
          by_cases hc : c = '"' <;> simp [hc]
  | @plain d body hquote hslash _ ih =>
      cases text with
      | nil => simp [h.string_nil]
      | cons c rest =>
          rw [h.string_cons, List.cons_append]
          by_cases hc : c = d
          · subst hc
            simp [hquote, hslash, ih]
          · simp [hc]
  | @escaped d body _ ih =>
      cases text with
      | nil => simp [h.string_nil]
      | cons c text =>
          rw [h.string_cons, List.cons_append, List.cons_append]
          by_cases hc : c = '\\'
          · subst hc
            cases text with
            | nil => simp [h.escaped_nil]
            | cons c rest =>
                by_cases hd : c = d
                · subst hd
                  simp [h.escaped_cons, ih]
                · simp [h.escaped_cons, hd]
          · simp [hc]

/-! ## Comments -/

theorem not_infix_of_cons {marker body : List Char} {c : Char} (h : ¬marker <:+: c :: body) :
    ¬marker <:+: body :=
  fun hin => h (hin.trans (List.suffix_cons c body).isInfix)

/-- The end of a block comment does not begin in what is before it. -/
theorem ne_block_end {c : Char} {body : List Char} (h : ¬ ['*', '/'] <:+: c :: body)
    (rest behind : List Char) : c :: (body ++ '*' :: '/' :: rest) ≠ '*' :: '/' :: behind := by
  intro heq
  obtain ⟨rfl, htail⟩ := List.cons.inj heq
  cases body with
  | nil => cases htail
  | cons d body =>
      obtain ⟨rfl, _⟩ := List.cons.inj htail
      exact h ⟨[], body, rfl⟩

theorem stripCommentsFrom_block {body : List Char} (hbody : ¬ ['*', '/'] <:+: body)
    (rest : List Char) :
    stripCommentsFrom .block (body ++ '*' :: '/' :: rest) = stripCommentsFrom .code rest := by
  induction body with
  | nil => rfl
  | cons c body ih =>
      rw [List.cons_append, stripCommentsFrom_block_cons (ne_block_end hbody rest)]
      exact ih (not_infix_of_cons hbody)

theorem stripCommentsFrom_line {body : List Char} (hbody : '\n' ∉ body) (rest : List Char) :
    stripCommentsFrom .line (body ++ '\n' :: rest) = '\n' :: stripCommentsFrom .code rest := by
  induction body with
  | nil => rfl
  | cons c body ih =>
      obtain ⟨hc, hbehind⟩ := List.ne_and_not_mem_of_not_mem_cons hbody
      rw [List.cons_append, stripCommentsFrom_line_cons hc.symm]
      exact ih hbehind

theorem stripCommentsFrom_line_end {body : List Char} (hbody : '\n' ∉ body) :
    stripCommentsFrom .line body = [] := by
  induction body with
  | nil => rfl
  | cons c body ih =>
      obtain ⟨hc, hbehind⟩ := List.ne_and_not_mem_of_not_mem_cons hbody
      rw [stripCommentsFrom_line_cons hc.symm]
      exact ih hbehind

theorem stripCommentsFrom_plain (p : Char → Bool) (hslash : p '/' = false) (hquote : p '"' = false)
    {letters : List Char} (h : ∀ c ∈ letters, p c = true) (rest : List Char) :
    stripCommentsFrom .code (letters ++ rest) = letters ++ stripCommentsFrom .code rest := by
  induction letters with
  | nil => rfl
  | cons c letters ih =>
      obtain ⟨hc, hletters⟩ := List.forall_mem_cons.1 h
      have hnoSlash := ne_of_true_of_false hc hslash
      rw [List.cons_append, stripCommentsFrom_cons, CommentScan.after,
        if_neg (ne_of_true_of_false hc hquote), ih hletters, List.cons_append]
      · intro _ heq
        exact hnoSlash (List.cons.inj heq).1
      · intro _ heq
        exact hnoSlash (List.cons.inj heq).1

theorem stripCommentsFrom_copies :
    CopiesStrings (stripCommentsFrom .string) (stripCommentsFrom .escaped)
      (stripCommentsFrom .code) where
  string_nil := rfl
  string_cons := by
    intro c rest
    rw [stripCommentsFrom_string_cons]
    split_ifs <;> rfl
  escaped_nil := rfl
  escaped_cons := fun _ _ => rfl

/-- Tokens stay as they are, string literals with comment markers in them included. -/
theorem stripCommentsFrom_token {token : Token} (h : token.IsValid) (rest : List Char) :
    stripCommentsFrom .code (token.chars ++ rest) =
      token.chars ++ stripCommentsFrom .code rest := by
  cases token with
  | mark c => exact stripCommentsFrom_plain isMark rfl rfl (List.forall_mem_singleton.2 h) rest
  | quoted body =>
      have hbody := (stripCommentsFrom_copies.string_eq_append_iff h).2 ⟨rest, rfl, rfl⟩
      simp only [Token.chars, List.cons_append, List.append_assoc, List.nil_append]
      rw [stripCommentsFrom_cons, CommentScan.after, if_pos rfl, hbody]
      · intro _ heq
        cases heq
      · intro _ heq
        cases heq
  | word letters => exact stripCommentsFrom_plain isWordChar rfl rfl h.2 rest

theorem stripCommentsFrom_trivia {text : List Char} (h : Trivia text) :
    ∃ blank, IsBlank blank ∧
      ∀ rest, stripCommentsFrom .code (text ++ rest) = blank ++ stripCommentsFrom .code rest := by
  induction h with
  | nil => exact ⟨[], isBlank_nil, fun _ => rfl⟩
  | @blank c text hc _ ih =>
      obtain ⟨blank, hblank, hstrip⟩ := ih
      refine ⟨c :: blank, List.forall_mem_cons.2 ⟨hc, hblank⟩, fun rest => ?_⟩
      have hplain := stripCommentsFrom_plain isSpace rfl rfl (List.forall_mem_singleton.2 hc)
      rw [List.cons_append, ← List.singleton_append, hplain, hstrip]
      rfl
  | block hbody _ ih =>
      obtain ⟨blank, hblank, hstrip⟩ := ih
      refine ⟨blank, hblank, fun rest => ?_⟩
      rw [← hstrip rest]
      simp only [List.cons_append, List.append_assoc]
      exact stripCommentsFrom_block hbody _
  | line hbody _ ih =>
      obtain ⟨blank, hblank, hstrip⟩ := ih
      refine ⟨'\n' :: blank, List.forall_mem_cons.2 ⟨rfl, hblank⟩, fun rest => ?_⟩
      simp only [List.cons_append, List.append_assoc]
      rw [← hstrip rest]
      exact stripCommentsFrom_line hbody _

theorem isBlank_stripComments {text : List Char} (h : LastTrivia text) :
    IsBlank (stripComments text) := by
  cases h with
  | ended h =>
      obtain ⟨blank, hblank, hstrip⟩ := stripCommentsFrom_trivia h
      have hnil := hstrip []
      rw [List.append_nil, stripCommentsFrom_nil, List.append_nil] at hnil
      rwa [stripComments, hnil]
  | @unfinished text body h hbody =>
      obtain ⟨blank, hblank, hstrip⟩ := stripCommentsFrom_trivia h
      have hline : stripCommentsFrom .code ('/' :: '/' :: body) = [] :=
        stripCommentsFrom_line_end hbody
      rwa [stripComments, hstrip, hline, List.append_nil]

/-! ## Trailing commas -/

theorem Trailing.padded {tokens others : List Token} (h : Trailing tokens others) :
    Padded tokens others := by
  induction h with
  | nil => exact .nil
  | keep token _ ih => exact .keep token ih
  | @comma token closing tokens others _ hcloses _ ih =>
      cases ih with
      | keep _ hrest => exact .keep token (.comma hcloses hrest)
      | comma hother _ => cases hcloses

theorem Padded.head? {tokens others : List Token} (h : Padded tokens others)
    (hnext : ∀ token ∈ tokens.head?, token.closes = false) : others.head? = tokens.head? := by
  cases h with
  | nil => rfl
  | keep token _ => rfl
  | comma hcloses _ =>
      rw [hnext _ rfl] at hcloses
      cases hcloses

theorem isBlank_of_isSpace {c : Char} (h : isSpace c = true) : Text.isBlank c = true := by
  simp only [isSpace, Bool.or_eq_true, beq_iff_eq] at h
  obtain ((rfl | rfl) | rfl) | rfl := h <;> decide

theorem toNat_of_isWordChar {c : Char} (h : isWordChar c = true) :
    0x2B ≤ c.toNat ∧ c.toNat ≤ 0x7A := by
  simp only [isWordChar, Bool.or_eq_true, beq_iff_eq] at h
  obtain ((halnum | rfl) | rfl) | rfl := h
  · obtain halpha | hdigit := (Bool.or_eq_true _ _).mp halnum
    · have hletter : 'A'.val ≤ c.val ∧ c.val ≤ 'z'.val := by
        obtain hupper | hlower := (Bool.or_eq_true _ _).mp halpha
        · obtain ⟨hlow, hhigh⟩ := of_decide_eq_true hupper
          exact ⟨hlow, UInt32.le_trans hhigh (by decide)⟩
        · obtain ⟨hlow, hhigh⟩ := (Bool.and_eq_true _ _).mp hlower
          exact ⟨UInt32.le_trans (by decide) (of_decide_eq_true hlow), of_decide_eq_true hhigh⟩
      exact ⟨Nat.le_trans (by decide) (UInt32.le_iff_toNat_le.1 hletter.1),
        UInt32.le_iff_toNat_le.1 hletter.2⟩
    · obtain ⟨hlow, hhigh⟩ := Char.isDigit_iff_toNat.1 hdigit
      exact ⟨Nat.le_trans (by decide) hlow, Nat.le_trans hhigh (by decide)⟩
  · decide
  · decide
  · decide

theorem not_isBlank_of_isWordChar {c : Char} (h : isWordChar c = true) :
    Text.isBlank c = false := by
  have hrange := toNat_of_isWordChar h
  simp only [Text.isBlank, Bool.or_eq_false_iff, Bool.and_eq_false_iff, decide_eq_false_iff_not,
    beq_eq_false_iff_ne]
  omega

/-- A token begins with no blank, and its first character tells whether it closes a container. -/
theorem Token.IsValid.closes_eq {token : Token} (h : token.IsValid) :
    ∃ c rest, token.chars = c :: rest ∧ Text.isBlank c = false ∧
      token.closes = (c == '}' || c == ']') := by
  cases token with
  | mark c =>
      refine ⟨c, [], rfl, ?_⟩
      simp only [IsValid, isMark, Bool.or_eq_true, beq_iff_eq] at h
      obtain ((((rfl | rfl) | rfl) | rfl) | rfl) | rfl := h <;> exact ⟨by decide, by decide⟩
  | quoted body => exact ⟨'"', body ++ ['"'], rfl, by decide, rfl⟩
  | word letters =>
      obtain ⟨hne, hletters⟩ := h
      obtain ⟨c, rest, rfl⟩ := List.exists_cons_of_ne_nil hne
      have hc := hletters c List.mem_cons_self
      refine ⟨c, rest, rfl, not_isBlank_of_isWordChar hc, ?_⟩
      have hcurly : c ≠ '}' := ne_of_true_of_false hc rfl
      have hsquare : c ≠ ']' := ne_of_true_of_false hc rfl
      have hword : closes (.word (c :: rest)) = false := rfl
      simp [hword, hcurly, hsquare]

/-- Whether a bracket closes next is told by the next token. -/
theorem closesNext_of_laid {tokens : List Token} {text : List Char}
    (h : Laid IsBlank IsBlank tokens text) :
    closesNext text = tokens.head?.any Token.closes := by
  have htrim : ∀ {before rest : List Char}, IsBlank before →
      Text.trimStart (before ++ rest) = Text.trimStart rest := fun hbefore =>
    List.dropWhile_append_of_pos fun c hc => isBlank_of_isSpace (hbefore c hc)
  cases tokens with
  | nil =>
      have hnil : Text.trimStart (text ++ []) = Text.trimStart [] := htrim h
      rw [closesNext, ← List.append_nil text, hnil]
      rfl
  | cons token tokens =>
      obtain ⟨before, rest, hbefore, htoken, _, rfl⟩ := h
      obtain ⟨c, letters, hchars, hc, hcloses⟩ := Token.IsValid.closes_eq htoken
      rw [closesNext, htrim hbefore, hchars, List.cons_append, Text.trimStart,
        List.dropWhile_cons_of_neg (by simp [hc])]
      exact hcloses.symm

theorem dropCommasFrom_plain (p : Char → Bool) (hcomma : p ',' = false) (hquote : p '"' = false)
    {letters : List Char} (h : ∀ c ∈ letters, p c = true) (rest : List Char) :
    dropCommasFrom .code (letters ++ rest) = letters ++ dropCommasFrom .code rest := by
  induction letters with
  | nil => rfl
  | cons c letters ih =>
      obtain ⟨hc, hletters⟩ := List.forall_mem_cons.1 h
      have hnoComma := ne_of_true_of_false hc hcomma
      have hnoQuote := ne_of_true_of_false hc hquote
      rw [List.cons_append, dropCommasFrom_cons fun h => hnoComma h.1, CommaScan.after,
        if_neg hnoQuote, ih hletters, List.cons_append]

theorem dropCommasFrom_copies :
    CopiesStrings (dropCommasFrom .string) (dropCommasFrom .escaped) (dropCommasFrom .code) where
  string_nil := rfl
  string_cons := by
    intro c rest
    rw [dropCommasFrom_string_cons]
    split_ifs <;> rfl
  escaped_nil := rfl
  escaped_cons := fun _ _ => rfl

theorem dropCommasFrom_token {token : Token} (h : token.IsValid) (hne : token ≠ .mark ',')
    (rest : List Char) :
    dropCommasFrom .code (token.chars ++ rest) = token.chars ++ dropCommasFrom .code rest := by
  cases token with
  | mark c =>
      have hcomma : (',' == c) = false := beq_eq_false_iff_ne.2 fun heq => hne (by rw [heq])
      have hquote : ('"' == c) = false :=
        beq_eq_false_iff_ne.2 (ne_of_true_of_false (show isMark c = true from h) rfl).symm
      have hself : ∀ d ∈ [c], (d == c) = true := List.forall_mem_singleton.2 (beq_self_eq_true c)
      exact dropCommasFrom_plain (· == c) hcomma hquote hself rest
  | quoted body =>
      have hbody := (dropCommasFrom_copies.string_eq_append_iff h).2 ⟨rest, rfl, rfl⟩
      simp only [Token.chars, List.cons_append, List.append_assoc, List.nil_append]
      rw [dropCommasFrom_cons (by simp), CommaScan.after, if_pos rfl, hbody]
  | word letters => exact dropCommasFrom_plain isWordChar rfl rfl h.2 rest

theorem dropCommasFrom_blank {blank : List Char} (h : IsBlank blank) (rest : List Char) :
    dropCommasFrom .code (blank ++ rest) = blank ++ dropCommasFrom .code rest :=
  dropCommasFrom_plain isSpace rfl rfl h rest

/-- What is dropped is the commas that were added. -/
theorem laid_dropTrailingCommas {tokens others : List Token} (h : Padded tokens others)
    (hchain : tokens.IsChain Adjacent) {text : List Char}
    (hlaid : Laid IsBlank IsBlank others text) :
    Laid IsBlank IsBlank tokens (dropTrailingCommas text) := by
  unfold dropTrailingCommas
  induction h generalizing text with
  | nil =>
      have hdrop := dropCommasFrom_blank hlaid []
      rw [List.append_nil, dropCommasFrom_nil, List.append_nil] at hdrop
      rw [hdrop]
      exact hlaid
  | @keep token tokens others h ih =>
      obtain ⟨before, rest, hbefore, htoken, hrest, rfl⟩ := hlaid
      obtain ⟨hnext, htail⟩ := List.isChain_cons.1 hchain
      refine ⟨before, dropCommasFrom .code rest, hbefore, htoken, ih htail hrest, ?_⟩
      rw [dropCommasFrom_blank hbefore]
      by_cases hcomma : token = .mark ','
      · have hunended : ∀ next ∈ tokens.head?, next.closes = false := fun next hhead =>
          Bool.eq_false_iff.2 fun hends => (hnext next hhead).unended ⟨hcomma, hends⟩
        have hcloses : closesNext rest = false := by
          rw [closesNext_of_laid hrest, h.head? hunended]
          cases hhead : tokens.head? with
          | none => rfl
          | some next => exact hunended next hhead
        rw [hcomma]
        simp [Token.chars, dropCommasFrom_comma, hcloses]
      · rw [dropCommasFrom_token htoken hcomma]
  | @comma closing tokens others hcloses h ih =>
      obtain ⟨before, _, hbefore, _, ⟨gap, rest, hgap, hclosing, hrest, rfl⟩, rfl⟩ := hlaid
      have hne : closing ≠ .mark ',' := by
        rintro rfl
        cases hcloses
      have hends : closesNext (gap ++ (closing.chars ++ rest)) = true := by
        rw [closesNext_of_laid (laid_cons hgap hclosing hrest)]
        exact hcloses
      refine ⟨before ++ gap, dropCommasFrom .code rest, hbefore.append hgap, hclosing,
        ih (List.isChain_cons.1 hchain).2 hrest, ?_⟩
      rw [dropCommasFrom_blank hbefore, Token.chars, List.singleton_append, dropCommasFrom_comma,
        if_pos hends, dropCommasFrom_blank hgap, dropCommasFrom_token hclosing hne,
        List.append_assoc]

end Json

end ScopedCheck

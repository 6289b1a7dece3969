import ScopedCheck.Proofs.Json.Decoration

/-!
# What the tolerant dialect accepts

A text is accepted exactly when it is laid out from the tokens of a value with
comments in the gaps and commas before closing brackets.  Three liberties go
beyond that: a comma in an empty container, block comments inside a word, and a
block comment that is left open at the end.
-/

namespace ScopedCheck

namespace Json

/-- Block comments side by side. -/
inductive Blocks : List Char → Prop
  | nil : Blocks []
  | cons {body rest : List Char} (hbody : ¬ ['*', '/'] <:+: body) (hrest : Blocks rest) :
      Blocks ('/' :: '*' :: (body ++ '*' :: '/' :: rest))

/-- Further letters of a word, each behind any number of block comments. -/
inductive Continued : List Char → List Char → Prop
  | nil : Continued [] []
  | cons (c : Char) {letters blocks rest : List Char} (hblocks : Blocks blocks)
      (hrest : Continued letters rest) : Continued (c :: letters) (blocks ++ c :: rest)

/-- A token as it is, or a word with block comments between its letters. -/
inductive Token.Written : Token → List Char → Prop
  | whole (token : Token) : Written token token.chars
  | interrupted (c : Char) {letters rest : List Char} (hrest : Continued letters rest) :
      Written (.word (c :: letters)) (c :: rest)

/-- White space and comments at the end of a text, which may end any comment. -/
inductive FinalTrivia : List Char → Prop
  | last {text : List Char} (h : LastTrivia text) : FinalTrivia text
  | unclosed {text body : List Char} (h : Trivia text) (hbody : ¬ ['*', '/'] <:+: body) :
      FinalTrivia (text ++ '/' :: '*' :: body)

/-- Tokens one after the other, each behind white space and comments. -/
def LaidLoosely : List Token → List Char → Prop
  | [], text => FinalTrivia text
  | token :: tokens, text =>
      ∃ before written rest, Trivia before ∧ token.IsValid ∧ token.Written written ∧
        LaidLoosely tokens rest ∧ text = before ++ (written ++ rest)

/-- Texts that the tolerant dialect takes for some tokens. -/
def Tolerated (tokens : List Token) (text : List Char) : Prop :=
  ∃ others, Padded tokens others ∧ LaidLoosely others text

/-! ## What a scan for comments meets -/

/-- A text up to its first string, as a scan for comments meets it. -/
inductive Scanned : List Char → Prop
  | nil : Scanned []
  | quote (rest : List Char) : Scanned ('"' :: rest)
  | block {body rest : List Char} (hbody : ¬ ['*', '/'] <:+: body) (h : Scanned rest) :
      Scanned ('/' :: '*' :: (body ++ '*' :: '/' :: rest))
  | unclosed {body : List Char} (hbody : ¬ ['*', '/'] <:+: body) : Scanned ('/' :: '*' :: body)
  | line {body rest : List Char} (hbody : '\n' ∉ body) (h : Scanned rest) :
      Scanned ('/' :: '/' :: (body ++ '\n' :: rest))
  | unended {body : List Char} (hbody : '\n' ∉ body) : Scanned ('/' :: '/' :: body)
  | plain {c : Char} {rest : List Char} (hquote : c ≠ '"')
      (hline : ∀ behind, c :: rest ≠ '/' :: '/' :: behind)
      (hblock : ∀ behind, c :: rest ≠ '/' :: '*' :: behind) (h : Scanned rest) :
      Scanned (c :: rest)

theorem exists_first_infix {text : List Char} (h : ['*', '/'] <:+: text) :
    ∃ body rest, text = body ++ '*' :: '/' :: rest ∧ ¬ ['*', '/'] <:+: body := by
  induction text with
  | nil => cases List.infix_nil.1 h
  | cons c text ih =>
      by_cases hhere : ['*', '/'] <+: c :: text
      · obtain ⟨rest, hrest⟩ := hhere
        refine ⟨[], rest, hrest.symm, fun hnil => ?_⟩
        cases List.infix_nil.1 hnil
      · have hbehind := (List.infix_cons_iff.1 h).resolve_left hhere
        obtain ⟨body, rest, rfl, hbody⟩ := ih hbehind
        refine ⟨c :: body, rest, rfl, fun hinfix => ?_⟩
        obtain hstart | hin := List.infix_cons_iff.1 hinfix
        · exact hhere (hstart.trans (List.prefix_append (c :: body) _))
        · exact hbody hin

theorem scanned (text : List Char) : Scanned text := by
  -- Behind a comment the text goes on past its end, so the induction is on the length.
  induction hlength : text.length using Nat.strong_induction_on generalizing text with
  | _ length ih =>
      subst hlength
      by_cases hline : ∃ behind, text = '/' :: '/' :: behind
      · obtain ⟨behind, rfl⟩ := hline
        by_cases hbreak : '\n' ∈ behind
        · obtain ⟨body, rest, rfl, hbody⟩ := List.eq_append_cons_of_mem hbreak
          exact .line hbody (ih _ (by simp; omega) rest rfl)
        · exact .unended hbreak
      by_cases hblock : ∃ behind, text = '/' :: '*' :: behind
      · obtain ⟨behind, rfl⟩ := hblock
        by_cases hclosed : ['*', '/'] <:+: behind
        · obtain ⟨body, rest, rfl, hbody⟩ := exists_first_infix hclosed
          exact .block hbody (ih _ (by simp; omega) rest rfl)
        · exact .unclosed hclosed
      cases text with
      | nil => exact .nil
      | cons c rest =>
          by_cases hquote : c = '"'
          · subst hquote
            exact .quote rest
          · exact .plain hquote (not_exists.1 hline) (not_exists.1 hblock) (ih _ (by simp) rest rfl)

theorem stripCommentsFrom_block_end {body : List Char} (hbody : ¬ ['*', '/'] <:+: body) :
    stripCommentsFrom .block body = [] := by
  induction body with
  | nil => rfl
  | cons c body ih =>
      rw [stripCommentsFrom_block_cons]
      · exact ih (not_infix_of_cons hbody)
      · intro rest heq
        exact hbody ⟨[], rest, heq.symm⟩

/-- White space before a character stands for white space and comments, and none for blocks. -/
theorem exists_trivia {text blank out : List Char} {c : Char} (hblank : IsBlank blank)
    (hc : isSpace c = false) (h : stripCommentsFrom .code text = blank ++ c :: out) :
    ∃ before rest, text = before ++ c :: rest ∧ Trivia before ∧ (blank = [] → Blocks before) ∧
      stripCommentsFrom (.after c) rest = out := by
  induction scanned text generalizing blank with
  | nil => simp at h
  | quote rest =>
      rw [stripCommentsFrom_cons (by simp) (by simp)] at h
      cases blank with
      | nil =>
          obtain ⟨rfl, rfl⟩ := List.cons.inj h
          exact ⟨[], rest, rfl, .nil, fun _ => .nil, rfl⟩
      | cons d blank =>
          obtain ⟨rfl, _⟩ := List.cons.inj h
          exact absurd (hblank '"' List.mem_cons_self) (by decide)
  | @block body rest hbody _ ih =>
      have hrest : stripCommentsFrom .code rest = blank ++ c :: out := by
        rw [← h, stripCommentsFrom_slash_star, stripCommentsFrom_block hbody]
      obtain ⟨before, behind, rfl, hbefore, hblocks, hout⟩ := ih hblank hrest
      refine ⟨_, behind, ?_, .block hbody hbefore, fun hnil => .cons hbody (hblocks hnil), hout⟩
      simp only [List.cons_append, List.append_assoc]
  | unclosed hbody =>
      rw [stripCommentsFrom_slash_star, stripCommentsFrom_block_end hbody] at h
      simp at h
  | @line body rest hbody _ ih =>
      rw [stripCommentsFrom_slash_slash, stripCommentsFrom_line hbody] at h
      cases blank with
      | nil =>
          obtain ⟨rfl, _⟩ := List.cons.inj h
          cases hc
      | cons d blank =>
          obtain ⟨rfl, hrest⟩ := List.cons.inj h
          obtain ⟨before, behind, rfl, hbefore, _, hout⟩ :=
            ih (List.forall_mem_cons.1 hblank).2 hrest
          refine ⟨_, behind, ?_, .line hbody hbefore,
            fun hnil => absurd hnil (List.cons_ne_nil _ _), hout⟩
          simp only [List.cons_append, List.append_assoc]
  | unended hbody =>
      rw [stripCommentsFrom_slash_slash, stripCommentsFrom_line_end hbody] at h
      simp at h
  | @plain d rest hquote hline hblock _ ih =>
      rw [stripCommentsFrom_cons hline hblock] at h
      cases blank with
      | nil =>
          obtain ⟨rfl, rfl⟩ := List.cons.inj h
          exact ⟨[], rest, rfl, .nil, fun _ => .nil, rfl⟩
      | cons e blank =>
          obtain ⟨rfl, hrest⟩ := List.cons.inj h
          obtain ⟨hd, hblank⟩ := List.forall_mem_cons.1 hblank
          rw [CommentScan.after, if_neg hquote] at hrest
          obtain ⟨before, behind, rfl, hbefore, _, hout⟩ := ih hblank hrest
          exact ⟨d :: before, behind, rfl, .blank hd hbefore,
            fun hnil => absurd hnil (List.cons_ne_nil _ _), hout⟩

theorem Trivia.append {before text : List Char} (hbefore : Trivia before) (h : Trivia text) :
    Trivia (before ++ text) := by
  induction hbefore with
  | nil => exact h
  | blank hc _ ih => exact .blank hc ih
  | block hbody _ ih =>
      simp only [List.cons_append, List.append_assoc]
      exact .block hbody ih
  | line hbody _ ih =>
      simp only [List.cons_append, List.append_assoc]
      exact .line hbody ih

theorem Trivia.final {before text : List Char} (hbefore : Trivia before) (h : FinalTrivia text) :
    FinalTrivia (before ++ text) := by
  cases h with
  | last h =>
      cases h with
      | ended h => exact .last (.ended (hbefore.append h))
      | unfinished h hbody =>
          rw [← List.append_assoc]
          exact .last (.unfinished (hbefore.append h) hbody)
  | unclosed h hbody =>
      rw [← List.append_assoc]
      exact .unclosed (hbefore.append h) hbody

theorem finalTrivia_of_isBlank {text : List Char} (h : IsBlank (stripComments text)) :
    FinalTrivia text := by
  unfold stripComments at h
  induction scanned text with
  | nil => exact .last (.ended .nil)
  | quote rest =>
      rw [stripCommentsFrom_cons (by simp) (by simp)] at h
      exact absurd (h '"' List.mem_cons_self) (by decide)
  | @block body rest hbody _ ih =>
      rw [stripCommentsFrom_slash_star, stripCommentsFrom_block hbody] at h
      simpa using (Trivia.block hbody .nil).final (ih h)
  | unclosed hbody => exact .unclosed .nil hbody
  | @line body rest hbody _ ih =>
      rw [stripCommentsFrom_slash_slash, stripCommentsFrom_line hbody] at h
      simpa using (Trivia.line hbody .nil).final (ih (List.forall_mem_cons.1 h).2)
  | unended hbody => exact .last (.unfinished .nil hbody)
  | plain hquote hline hblock _ ih =>
      rw [stripCommentsFrom_cons hline hblock, CommentScan.after, if_neg hquote] at h
      obtain ⟨hd, hrest⟩ := List.forall_mem_cons.1 h
      exact (Trivia.blank hd .nil).final (ih hrest)

theorem exists_continued {letters text out : List Char}
    (hletters : ∀ c ∈ letters, isWordChar c = true)
    (h : stripCommentsFrom .code text = letters ++ out) :
    ∃ written rest, text = written ++ rest ∧ Continued letters written ∧
      stripCommentsFrom .code rest = out := by
  induction letters generalizing text with
  | nil => exact ⟨[], text, rfl, .nil, h⟩
  | cons c letters ih =>
      obtain ⟨hc, hletters⟩ := List.forall_mem_cons.1 hletters
      obtain ⟨blocks, behind, rfl, _, hblocks, hbehind⟩ :=
        exists_trivia isBlank_nil (isSpace_of_isWordChar hc) h
      have hquote : c ≠ '"' := ne_of_true_of_false hc rfl
      rw [CommentScan.after, if_neg hquote] at hbehind
      obtain ⟨written, rest, rfl, hwritten, hout⟩ := ih hletters hbehind
      refine ⟨blocks ++ c :: written, rest, ?_, .cons c (hblocks rfl) hwritten, hout⟩
      rw [List.append_assoc, List.cons_append]

/-- A token of what is left was written as it is, or as a word with blocks in it. -/
theorem exists_written {token : Token} (htoken : token.IsValid) {c : Char}
    {letters text out : List Char} (hchars : token.chars = c :: letters)
    (h : stripCommentsFrom (.after c) text = letters ++ out) :
    ∃ written rest, c :: text = written ++ rest ∧ token.Written written ∧
      stripCommentsFrom .code rest = out := by
  cases token with
  | mark d =>
      obtain ⟨rfl, rfl⟩ := List.cons.inj hchars
      have hquote : d ≠ '"' := ne_of_true_of_false (show isMark d = true from htoken) rfl
      rw [CommentScan.after, if_neg hquote] at h
      exact ⟨[d], text, rfl, .whole (.mark d), h⟩
  | quoted body =>
      obtain ⟨rfl, rfl⟩ := List.cons.inj hchars
      rw [CommentScan.after, if_pos rfl, List.append_assoc, List.singleton_append,
        stripCommentsFrom_copies.string_eq_append_iff htoken] at h
      obtain ⟨rest, rfl, hout⟩ := h
      refine ⟨_, rest, ?_, .whole (.quoted body), hout⟩
      simp only [Token.chars, List.cons_append, List.append_assoc, List.nil_append]
  | word all =>
      obtain rfl : all = c :: letters := hchars
      obtain ⟨hc, hletters⟩ := List.forall_mem_cons.1 htoken.2
      have hquote : c ≠ '"' := ne_of_true_of_false hc rfl
      rw [CommentScan.after, if_neg hquote] at h
      obtain ⟨written, rest, rfl, hwritten, hout⟩ := exists_continued hletters h
      exact ⟨c :: written, rest, rfl, .interrupted c hwritten, hout⟩

theorem laidLoosely_of_stripComments {tokens : List Token} {text : List Char}
    (h : Laid IsBlank IsBlank tokens (stripComments text)) : LaidLoosely tokens text := by
  induction tokens generalizing text with
  | nil => exact finalTrivia_of_isBlank h
  | cons token tokens ih =>
      obtain ⟨blank, out, hblank, htoken, hout, htext⟩ := h
      obtain ⟨c, letters, hchars, hc, _⟩ := htoken.chars_eq_cons
      rw [hchars, List.cons_append] at htext
      obtain ⟨before, behind, rfl, hbefore, _, hbehind⟩ := exists_trivia hblank hc htext
      obtain ⟨written, rest, hsplit, hwritten, rfl⟩ := exists_written htoken hchars hbehind
      exact ⟨before, written, rest, hbefore, htoken, hwritten, ih hout, by rw [hsplit]⟩

/-! ## Comments inside words and at the end -/

theorem stripCommentsFrom_blocks {blocks : List Char} (h : Blocks blocks) (rest : List Char) :
    stripCommentsFrom .code (blocks ++ rest) = stripCommentsFrom .code rest := by
  induction h with
  | nil => rfl
  | cons hbody _ ih =>
      rw [← ih]
      simp only [List.cons_append, List.append_assoc]
      exact stripCommentsFrom_block hbody _

theorem stripCommentsFrom_continued {letters written : List Char} (h : Continued letters written)
    (hletters : ∀ c ∈ letters, isWordChar c = true) (rest : List Char) :
    stripCommentsFrom .code (written ++ rest) = letters ++ stripCommentsFrom .code rest := by
  induction h with
  | nil => rfl
  | @cons c letters blocks behind hblocks _ ih =>
      obtain ⟨hc, hletters⟩ := List.forall_mem_cons.1 hletters
      have hplain := stripCommentsFrom_plain isWordChar rfl rfl (List.forall_mem_singleton.2 hc)
      rw [List.append_assoc, stripCommentsFrom_blocks hblocks, List.cons_append,
        ← List.singleton_append, hplain, ih hletters]
      rfl

theorem stripCommentsFrom_written {token : Token} (htoken : token.IsValid) {written : List Char}
    (h : token.Written written) (rest : List Char) :
    stripCommentsFrom .code (written ++ rest) =
      token.chars ++ stripCommentsFrom .code rest := by
  cases h with
  | whole => exact stripCommentsFrom_token htoken rest
  | interrupted c hrest =>
      exact stripCommentsFrom_continued (.cons c .nil hrest) htoken.2 rest

theorem FinalTrivia.isBlank_stripComments {text : List Char} (h : FinalTrivia text) :
    IsBlank (stripComments text) := by
  cases h with
  | last h => exact Json.isBlank_stripComments h
  | @unclosed text body h hbody =>
      obtain ⟨blank, hblank, hstrip⟩ := stripCommentsFrom_trivia h
      have hopen : stripCommentsFrom .code ('/' :: '*' :: body) = [] :=
        stripCommentsFrom_block_end hbody
      rwa [stripComments, hstrip, hopen, List.append_nil]

theorem laid_stripComments_iff {tokens : List Token} {text : List Char} :
    Laid IsBlank IsBlank tokens (stripComments text) ↔ LaidLoosely tokens text := by
  refine ⟨laidLoosely_of_stripComments, fun h => ?_⟩
  induction tokens generalizing text with
  | nil => exact FinalTrivia.isBlank_stripComments h
  | cons token tokens ih =>
      obtain ⟨before, written, rest, hbefore, htoken, hwritten, hrest, rfl⟩ := h
      obtain ⟨blank, hblank, hstrip⟩ := stripCommentsFrom_trivia hbefore
      refine ⟨blank, stripComments rest, hblank, htoken, ih hrest, ?_⟩
      rw [stripComments, hstrip, stripCommentsFrom_written htoken hwritten]
      rfl

/-! ## What a scan for commas meets -/

theorem exists_closing {text : List Char} (h : closesNext text = true) :
    ∃ gap c rest, text = gap ++ c :: rest ∧ (∀ d ∈ gap, Text.isBlank d = true) ∧
      (c = '}' ∨ c = ']') ∧
        dropCommasFrom .code text = gap ++ c :: dropCommasFrom (.after c) rest := by
  unfold closesNext Text.trimStart at h
  split at h
  · rename_i c rest hdrop
    have htext : text = text.takeWhile Text.isBlank ++ c :: rest := by
      rw [← hdrop, List.takeWhile_append_dropWhile]
    have hgap : ∀ d ∈ text.takeWhile Text.isBlank, Text.isBlank d = true :=
      List.all_eq_true.1 List.all_takeWhile
    have hc : c = '}' ∨ c = ']' := by simpa using h
    refine ⟨_, c, rest, htext, hgap, hc, ?_⟩
    have hkept : ¬(c = ',' ∧ closesNext rest = true) := by
      obtain rfl | rfl := hc <;> exact fun hcomma => absurd hcomma.1 (by decide)
    rw [← dropCommasFrom_cons hkept, ← dropCommasFrom_plain Text.isBlank rfl rfl hgap, ← htext]
  · cases h

/-- At most one comma was dropped before a character, and none before one that does not close. -/
theorem exists_kept {text blank out : List Char} {c : Char} (hblank : IsBlank blank)
    (hc : Text.isBlank c = false) (h : dropCommasFrom .code text = blank ++ c :: out) :
    ∃ rest, dropCommasFrom (.after c) rest = out ∧
      (text = blank ++ c :: rest ∨ (c = '}' ∨ c = ']') ∧
        ∃ before gap, blank = before ++ gap ∧ text = before ++ ',' :: (gap ++ c :: rest)) := by
  induction text generalizing blank with
  | nil => simp at h
  | cons d text ih =>
      by_cases hdropped : d = ',' ∧ closesNext text = true
      · obtain ⟨rfl, hcloses⟩ := hdropped
        rw [dropCommasFrom_comma, if_pos hcloses] at h
        obtain ⟨gap, e, rest, rfl, hgap, he, hdrop⟩ := exists_closing hcloses
        have hend : Text.isBlank e = false := by
          obtain rfl | rfl := he <;> decide
        obtain ⟨rfl, hout⟩ := eq_of_spans hgap (fun x hx => isBlank_of_isSpace (hblank x hx))
          (by simpa using hend) (by simpa using hc) (hdrop.symm.trans h)
        obtain ⟨rfl, rfl⟩ := List.cons.inj hout
        exact ⟨rest, rfl, .inr ⟨he, [], gap, rfl, rfl⟩⟩
      · rw [dropCommasFrom_cons hdropped] at h
        cases blank with
        | nil =>
            obtain ⟨rfl, rfl⟩ := List.cons.inj h
            exact ⟨text, rfl, .inl rfl⟩
        | cons e blank =>
            obtain ⟨rfl, hrest⟩ := List.cons.inj h
            obtain ⟨hd, hblank⟩ := List.forall_mem_cons.1 hblank
            have hquote : d ≠ '"' := ne_of_true_of_false hd rfl
            rw [CommaScan.after, if_neg hquote] at hrest
            obtain ⟨rest, hout, rfl | ⟨hcloses, before, gap, rfl, rfl⟩⟩ := ih hblank hrest
            · exact ⟨rest, hout, .inl rfl⟩
            · exact ⟨rest, hout, .inr ⟨hcloses, d :: before, gap, rfl, rfl⟩⟩

theorem exists_letters {letters text out : List Char}
    (hletters : ∀ c ∈ letters, isWordChar c = true)
    (h : dropCommasFrom .code text = letters ++ out) :
    ∃ rest, text = letters ++ rest ∧ dropCommasFrom .code rest = out := by
  induction letters generalizing text with
  | nil => exact ⟨text, rfl, h⟩
  | cons c letters ih =>
      obtain ⟨hc, hletters⟩ := List.forall_mem_cons.1 hletters
      have hquote : c ≠ '"' := ne_of_true_of_false hc rfl
      obtain ⟨behind, hbehind, rfl | ⟨hcloses, _⟩⟩ :=
        exists_kept isBlank_nil (not_isBlank_of_isWordChar hc) h
      · rw [CommaScan.after, if_neg hquote] at hbehind
        obtain ⟨rest, rfl, hout⟩ := ih hletters hbehind
        exact ⟨rest, rfl, hout⟩
      · obtain rfl | rfl := hcloses <;> cases hc

theorem exists_chars {token : Token} (htoken : token.IsValid) {c : Char}
    {letters text out : List Char} (hchars : token.chars = c :: letters)
    (h : dropCommasFrom (.after c) text = letters ++ out) :
    ∃ rest, text = letters ++ rest ∧ dropCommasFrom .code rest = out := by
  cases token with
  | mark d =>
      obtain ⟨rfl, rfl⟩ := List.cons.inj hchars
      have hquote : d ≠ '"' := ne_of_true_of_false (show isMark d = true from htoken) rfl
      rw [CommaScan.after, if_neg hquote] at h
      exact ⟨text, rfl, h⟩
  | quoted body =>
      obtain ⟨rfl, rfl⟩ := List.cons.inj hchars
      rw [CommaScan.after, if_pos rfl, List.append_assoc, List.singleton_append,
        dropCommasFrom_copies.string_eq_append_iff htoken] at h
      obtain ⟨rest, rfl, hout⟩ := h
      exact ⟨rest, by rw [List.append_assoc, List.singleton_append], hout⟩
  | word all =>
      obtain rfl : all = c :: letters := hchars
      obtain ⟨hc, hletters⟩ := List.forall_mem_cons.1 htoken.2
      have hquote : c ≠ '"' := ne_of_true_of_false hc rfl
      rw [CommaScan.after, if_neg hquote] at h
      exact exists_letters hletters h

theorem isBlank_of_dropTrailingCommas {text : List Char} (h : IsBlank (dropTrailingCommas text)) :
    IsBlank text := by
  unfold dropTrailingCommas at h
  induction text with
  | nil => exact isBlank_nil
  | cons c text ih =>
      by_cases hdropped : c = ',' ∧ closesNext text = true
      · obtain ⟨rfl, hcloses⟩ := hdropped
        obtain ⟨gap, d, rest, _, _, hd, hdrop⟩ := exists_closing hcloses
        rw [dropCommasFrom_comma, if_pos hcloses, hdrop] at h
        have hspace := h d (by simp)
        obtain rfl | rfl := hd <;> cases hspace
      · rw [dropCommasFrom_cons hdropped] at h
        obtain ⟨hc, hrest⟩ := List.forall_mem_cons.1 h
        have hquote : c ≠ '"' := ne_of_true_of_false hc rfl
        rw [CommaScan.after, if_neg hquote] at hrest
        exact List.forall_mem_cons.2 ⟨hc, ih hrest⟩

/-- What was dropped is commas before closing brackets, one before each at most. -/
theorem exists_padded {tokens : List Token} {text : List Char}
    (h : Laid IsBlank IsBlank tokens (dropTrailingCommas text)) :
    ∃ others, Padded tokens others ∧ Laid IsBlank IsBlank others text := by
  induction tokens generalizing text with
  | nil => exact ⟨[], .nil, isBlank_of_dropTrailingCommas h⟩
  | cons token tokens ih =>
      obtain ⟨blank, out, hblank, htoken, hout, htext⟩ := h
      obtain ⟨c, letters, hchars, hc, hends⟩ := Token.IsValid.closes_eq htoken
      rw [hchars, List.cons_append] at htext
      obtain ⟨behind, hbehind, hsplit⟩ := exists_kept hblank hc htext
      obtain ⟨rest, rfl, rfl⟩ := exists_chars htoken hchars hbehind
      obtain ⟨others, hpadded, hlaid⟩ := ih hout
      obtain rfl | ⟨hcloses, before, gap, rfl, rfl⟩ := hsplit
      · refine ⟨token :: others, .keep token hpadded, blank, rest, hblank, htoken, hlaid, ?_⟩
        rw [hchars, List.cons_append]
      · obtain ⟨hbefore, hgap⟩ := List.forall_mem_append.1 hblank
        have hclosing : token.closes = true := by simpa [hends] using hcloses
        refine ⟨.mark ',' :: token :: others, .comma hclosing hpadded, ?_⟩
        have hcomma : Token.IsValid (.mark ',') := rfl
        have hnext := laid_cons hbefore hcomma (laid_cons hgap htoken hlaid)
        rwa [hchars] at hnext

/-! ## Acceptance -/

/-- A text is accepted for a value exactly when it is one that is tolerated for its tokens. -/
theorem parseTolerant?_eq_some_iff {text : String} {value : Value} :
    parseTolerant? text = some value ↔
      ∃ tokens, Denotes maxDepth tokens value ∧ Tolerated tokens text.toList := by
  unfold parseTolerant?
  rw [parse?_eq_some_iff, String.toList_ofList]
  constructor
  · rintro ⟨tokens, hlaid, hdenotes⟩
    obtain ⟨others, hpadded, hstripped⟩ := exists_padded hlaid
    exact ⟨tokens, hdenotes, others, hpadded, laid_stripComments_iff.1 hstripped⟩
  · rintro ⟨tokens, hdenotes, others, hpadded, hloose⟩
    have hstripped := laid_stripComments_iff.2 hloose
    exact ⟨tokens, laid_dropTrailingCommas hpadded hdenotes.joined.chain hstripped, hdenotes⟩

/-! ## Decorated texts -/

theorem laidLoosely_of_laid {tokens : List Token} {text : List Char}
    (h : Laid Trivia LastTrivia tokens text) : LaidLoosely tokens text := by
  induction tokens generalizing text with
  | nil => exact .last h
  | cons token tokens ih =>
      obtain ⟨before, rest, hbefore, htoken, hrest, rfl⟩ := h
      exact ⟨before, token.chars, rest, hbefore, htoken, .whole token, ih hrest, rfl⟩

theorem Decorated.tolerated {tokens : List Token} {text : List Char} (h : Decorated tokens text) :
    Tolerated tokens text := by
  obtain ⟨others, htrailing, hlaid⟩ := h
  exact ⟨others, htrailing.padded, laidLoosely_of_laid hlaid⟩

/-- Comments and trailing commas do not change the value of a text. -/
theorem parseTolerant?_of_decorated {tokens : List Token} {value : Value}
    (h : Denotes maxDepth tokens value) {text : String}
    (hdecorated : Decorated tokens text.toList) : parseTolerant? text = some value :=
  parseTolerant?_eq_some_iff.2 ⟨tokens, h, hdecorated.tolerated⟩

/-- The next line after a decorated text is in no comment. -/
theorem stripComments_append_line {tokens : List Token} {text : List Char}
    (h : Laid Trivia LastTrivia tokens text) :
    ∃ kept, ∀ rest, stripComments (text ++ '\n' :: rest) = kept ++ '\n' :: stripComments rest := by
  induction tokens generalizing text with
  | nil =>
      cases h with
      | ended h =>
          obtain ⟨blank, _, hstrip⟩ := stripCommentsFrom_trivia h
          exact ⟨blank, fun rest => hstrip ('\n' :: rest)⟩
      | @unfinished text body h hbody =>
          obtain ⟨blank, _, hstrip⟩ := stripCommentsFrom_trivia h
          refine ⟨blank, fun rest => ?_⟩
          have hline : stripCommentsFrom .code ('/' :: '/' :: (body ++ '\n' :: rest)) =
              '\n' :: stripComments rest := stripCommentsFrom_line hbody rest
          rw [stripComments, List.append_assoc, hstrip, List.cons_append, List.cons_append, hline]
  | cons token tokens ih =>
      obtain ⟨before, behind, hbefore, htoken, hrest, rfl⟩ := h
      obtain ⟨blank, _, hstrip⟩ := stripCommentsFrom_trivia hbefore
      obtain ⟨kept, hkept⟩ := ih hrest
      refine ⟨blank ++ (token.chars ++ kept), fun rest => ?_⟩
      have hbehind := hkept rest
      rw [stripComments] at hbehind
      rw [stripComments, List.append_assoc, List.append_assoc, hstrip,
        stripCommentsFrom_token htoken, hbehind, List.append_assoc, List.append_assoc]

theorem infix_of_laid {gap last : List Char → Prop} {tokens : List Token} {text : List Char}
    (h : Laid gap last tokens text) {token : Token} (htoken : token ∈ tokens) :
    token.chars <:+: text := by
  induction tokens generalizing text with
  | nil => cases htoken
  | cons other tokens ih =>
      obtain ⟨before, rest, _, _, hrest, rfl⟩ := h
      obtain rfl | hmem := List.mem_cons.1 htoken
      · exact ⟨before, rest, List.append_assoc _ _ _⟩
      · exact ((ih hrest hmem).trans (List.suffix_append _ _).isInfix).trans
          (List.suffix_append _ _).isInfix

theorem Padded.parted {tokens others : List Token} (h : Padded tokens others)
    (hparted : Parted tokens) : Parted others := by
  induction h with
  | nil => exact hparted
  | @keep token tokens others h ih =>
      obtain ⟨hnext, hrest⟩ := List.isChain_cons.1 hparted
      refine List.isChain_cons.2 ⟨?_, ih hrest⟩
      cases h with
      | nil => exact hnext
      | keep => exact hnext
      | comma hcloses _ => simp [Token.isWord]
  | @comma closing tokens others hcloses h ih =>
      obtain ⟨_, hrest⟩ := List.isChain_cons.1 hparted
      have hword : closing.isWord = false := by
        cases closing with
        | word letters => cases hcloses
        | mark c => rfl
        | quoted body => rfl
      refine List.isChain_cons.2 ⟨by simp [hword], List.isChain_cons.2 ⟨by simp [hword], ih hrest⟩⟩

end Json

end ScopedCheck

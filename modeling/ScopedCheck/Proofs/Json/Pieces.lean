import ScopedCheck.Proofs.Json.Toleration

/-!
# Literals, comments and the rest of a text

Whatever is in a text, it is cut in one way into string literals, comments and the
characters outside of both.  A literal or a comment that nothing ends goes up to the end
of the text.
-/

namespace ScopedCheck

namespace Json

def OpensComment (text : List Char) : Prop :=
  ['/', '/'] <+: text ∨ ['/', '*'] <+: text

/-- Whether no quote ends the literal that a text is the inside of. -/
def NeverCloses (text : List Char) : Prop :=
  ∀ body rest, IsBody body → text ≠ body ++ '"' :: rest

/-- A literal before the rest of a text, with its quotes; without a second one it has no rest. -/
inductive IsLiteral : List Char → List Char → Prop
  | closed {body : List Char} (hbody : IsBody body) (rest : List Char) :
      IsLiteral ('"' :: (body ++ ['"'])) rest
  | unclosed {body : List Char} (hbody : NeverCloses body) : IsLiteral ('"' :: body) []

/-- A comment before the rest of a text; a line comment leaves its line break there. -/
inductive IsComment : List Char → List Char → Prop
  | block {body : List Char} (hbody : ¬ ['*', '/'] <:+: body) (rest : List Char) :
      IsComment ('/' :: '*' :: (body ++ ['*', '/'])) rest
  | unclosed {body : List Char} (hbody : ¬ ['*', '/'] <:+: body) :
      IsComment ('/' :: '*' :: body) []
  | line {body rest : List Char} (hbody : '\n' ∉ body) (hrest : ∀ c ∈ rest.head?, c = '\n') :
      IsComment ('/' :: '/' :: body) rest

inductive Piece where
  /-- A character outside of literals and comments. -/
  | plain (c : Char)
  | literal (written : List Char)
  | comment (written : List Char)
  deriving DecidableEq, Repr

namespace Piece

def chars : Piece → List Char
  | plain c => [c]
  | literal written => written
  | comment written => written

def isComment : Piece → Bool
  | comment _ => true
  | _ => false

def literal? : Piece → Option (List Char)
  | literal written => some written
  | _ => none

/-- Whether a piece may stand before the rest of a text. -/
def Fits : Piece → List Char → Prop
  | plain c, rest => c ≠ '"' ∧ ¬OpensComment (c :: rest)
  | literal written, rest => IsLiteral written rest
  | comment written, rest => IsComment written rest

end Piece

/-- A text as pieces one after the other. -/
def Cut : List Piece → List Char → Prop
  | [], text => text = []
  | piece :: pieces, text =>
      ∃ rest, piece.Fits rest ∧ Cut pieces rest ∧ text = piece.chars ++ rest

/-- The string literals of a text, in order and as they are written. -/
def HasLiterals (text : List Char) (literals : List (List Char)) : Prop :=
  ∃ pieces, Cut pieces text ∧ pieces.filterMap Piece.literal? = literals

theorem OpensComment.head?_eq {text : List Char} (h : OpensComment text) :
    text.head? = some '/' := by
  obtain ⟨_, rfl⟩ | ⟨_, rfl⟩ := h <;> rfl

theorem not_opensComment_nil : ¬OpensComment [] := fun h => by
  cases h.head?_eq

theorem opensComment_slash_iff {rest : List Char} :
    OpensComment ('/' :: rest) ↔ rest.head? = some '/' ∨ rest.head? = some '*' := by
  cases rest with
  | nil => simp [OpensComment, List.cons_prefix_cons]
  | cons c rest => simp [OpensComment, List.cons_prefix_cons, eq_comm]

/-! ## One way to cut -/

theorem IsLiteral.head?_eq {written rest : List Char} (h : IsLiteral written rest) :
    (written ++ rest).head? = some '"' := by
  cases h <;> rfl

theorem IsComment.opensComment {written rest : List Char} (h : IsComment written rest) :
    OpensComment (written ++ rest) := by
  cases h with
  | block => exact .inr ⟨_, rfl⟩
  | unclosed => exact .inr ⟨_, rfl⟩
  | line => exact .inl ⟨_, rfl⟩

theorem IsLiteral.unique {written other rest others : List Char} (h : IsLiteral written rest)
    (h' : IsLiteral other others) (heq : written ++ rest = other ++ others) :
    written = other ∧ rest = others := by
  cases h with
  | closed hbody rest =>
      cases h' with
      | closed hbody' others =>
          simp only [List.cons_append, List.append_assoc, List.cons.injEq, true_and] at heq
          obtain ⟨rfl, rfl⟩ := hbody.unique hbody' heq
          exact ⟨rfl, rfl⟩
      | unclosed hopen => exact absurd (by simpa using heq.symm) (hopen _ rest hbody)
  | unclosed hopen =>
      cases h' with
      | closed hbody' others => exact absurd (by simpa using heq) (hopen _ others hbody')
      | unclosed _ => exact ⟨by simpa using heq, rfl⟩

theorem eq_of_block_ends {body other : List Char} (hbody : ¬ ['*', '/'] <:+: body)
    (hother : ¬ ['*', '/'] <:+: other) {rest others : List Char}
    (h : body ++ '*' :: '/' :: rest = other ++ '*' :: '/' :: others) :
    body = other ∧ rest = others := by
  induction body generalizing other with
  | nil =>
      cases other with
      | nil => exact ⟨rfl, by simpa using h⟩
      | cons d other => exact absurd h.symm (ne_block_end hother others rest)
  | cons c body ih =>
      cases other with
      | nil => exact absurd h (ne_block_end hbody rest others)
      | cons d other =>
          obtain ⟨rfl, htail⟩ := List.cons.inj h
          obtain ⟨rfl, hrest⟩ := ih (not_infix_of_cons hbody) (not_infix_of_cons hother) htail
          exact ⟨rfl, hrest⟩

theorem IsComment.unique {written other rest others : List Char} (h : IsComment written rest)
    (h' : IsComment other others) (heq : written ++ rest = other ++ others) :
    written = other ∧ rest = others := by
  cases h with
  | block hbody rest =>
      cases h' with
      | block hbody' others =>
          simp only [List.cons_append, List.append_assoc, List.cons.injEq, true_and] at heq
          obtain ⟨rfl, rfl⟩ := eq_of_block_ends hbody hbody' heq
          exact ⟨rfl, rfl⟩
      | unclosed hopen => exact absurd ⟨_, rest, by simpa using heq⟩ hopen
      | line _ _ => simp at heq
  | unclosed hopen =>
      cases h' with
      | block _ others => exact absurd ⟨_, others, by simpa using heq.symm⟩ hopen
      | unclosed _ => exact ⟨by simpa using heq, rfl⟩
      | line _ _ => simp at heq
  | line hbody hrest =>
      cases h' with
      | block _ _ => simp at heq
      | unclosed _ => simp at heq
      | line hbody' hrest' =>
          have hspan : ∀ {text : List Char}, '\n' ∉ text → ∀ c ∈ text, (c != '\n') = true :=
            fun hno c hc => bne_iff_ne.2 (ne_of_mem_of_not_mem hc hno)
          have hstop : ∀ {text : List Char}, (∀ c ∈ text.head?, c = '\n') →
              ∀ c ∈ text.head?, (c != '\n') = false :=
            fun hall c hc => bne_eq_false_iff_eq.2 (hall c hc)
          obtain ⟨rfl, rfl⟩ := eq_of_spans (hspan hbody) (hspan hbody') (hstop hrest)
            (hstop hrest') (by simpa using heq)
          exact ⟨rfl, rfl⟩

namespace Piece

variable {piece other : Piece} {rest others : List Char}

/-- The front of a text tells whether its first piece is a literal. -/
theorem Fits.isSome_literal?_iff (h : piece.Fits rest) :
    piece.literal?.isSome = true ↔ (piece.chars ++ rest).head? = some '"' := by
  cases piece with
  | plain c => simpa [literal?, chars] using h.1
  | literal written => exact ⟨fun _ => IsLiteral.head?_eq h, fun _ => rfl⟩
  | comment written =>
      have hslash := (IsComment.opensComment h).head?_eq
      simp [literal?, chars, hslash]

/-- The front of a text tells whether its first piece is a comment. -/
theorem Fits.isComment_iff (h : piece.Fits rest) :
    piece.isComment = true ↔ OpensComment (piece.chars ++ rest) := by
  cases piece with
  | plain c => simpa [isComment, chars] using h.2
  | literal written =>
      have hquote := IsLiteral.head?_eq h
      simp only [isComment, chars, Bool.false_eq_true, false_iff]
      intro hopens
      rw [hopens.head?_eq] at hquote
      cases hquote
  | comment written => exact ⟨fun _ => IsComment.opensComment h, fun _ => rfl⟩

theorem Fits.unique (h : piece.Fits rest) (h' : other.Fits others)
    (heq : piece.chars ++ rest = other.chars ++ others) : piece = other ∧ rest = others := by
  have hliteral : piece.literal?.isSome = other.literal?.isSome := by
    rw [Bool.eq_iff_iff, h.isSome_literal?_iff, h'.isSome_literal?_iff, heq]
  have hcomment : piece.isComment = other.isComment := by
    rw [Bool.eq_iff_iff, h.isComment_iff, h'.isComment_iff, heq]
  cases piece with
  | plain c =>
      cases other with
      | plain d =>
          obtain ⟨rfl, rfl⟩ := List.cons.inj heq
          exact ⟨rfl, rfl⟩
      | literal other => cases hliteral
      | comment other => cases hcomment
  | literal written =>
      cases other with
      | plain d => cases hliteral
      | literal other =>
          obtain ⟨rfl, rfl⟩ := IsLiteral.unique h h' heq
          exact ⟨rfl, rfl⟩
      | comment other => cases hliteral
  | comment written =>
      cases other with
      | plain d => cases hcomment
      | literal other => cases hcomment
      | comment other =>
          obtain ⟨rfl, rfl⟩ := IsComment.unique h h' heq
          exact ⟨rfl, rfl⟩

theorem Fits.length_pos (h : piece.Fits rest) : 0 < piece.chars.length := by
  cases piece with
  | plain c => exact Nat.one_pos
  | literal written => cases h <;> exact Nat.succ_pos _
  | comment written => cases h <;> exact Nat.succ_pos _

theorem Fits.append_ne_nil (h : piece.Fits rest) : piece.chars ++ rest ≠ [] :=
  List.append_ne_nil_of_left_ne_nil (List.ne_nil_of_length_pos h.length_pos) rest

end Piece

theorem exists_fits {text : List Char} (hne : text ≠ []) :
    ∃ piece rest, Piece.Fits piece rest ∧ text = piece.chars ++ rest := by
  by_cases hopens : OpensComment text
  · obtain ⟨behind, rfl⟩ | ⟨behind, rfl⟩ := hopens
    · by_cases hbreak : '\n' ∈ behind
      · obtain ⟨body, rest, rfl, hbody⟩ := List.eq_append_cons_of_mem hbreak
        exact ⟨.comment ('/' :: '/' :: body), '\n' :: rest, .line hbody (by simp), rfl⟩
      · exact ⟨.comment ('/' :: '/' :: behind), [], .line hbreak (by simp), by simp [Piece.chars]⟩
    · by_cases hclosed : ['*', '/'] <:+: behind
      · obtain ⟨body, rest, rfl, hbody⟩ := exists_first_infix hclosed
        exact ⟨.comment _, rest, .block hbody rest, by simp [Piece.chars]⟩
      · exact ⟨.comment _, [], .unclosed hclosed, by simp [Piece.chars]⟩
  · obtain ⟨c, behind, rfl⟩ := List.exists_cons_of_ne_nil hne
    by_cases hquote : c = '"'
    · subst hquote
      by_cases hopen : NeverCloses behind
      · exact ⟨.literal _, [], .unclosed hopen, by simp [Piece.chars]⟩
      · simp only [NeverCloses, not_forall, not_not] at hopen
        obtain ⟨body, rest, hbody, rfl⟩ := hopen
        exact ⟨.literal _, rest, .closed hbody rest, by simp [Piece.chars]⟩
    · exact ⟨.plain c, behind, ⟨hquote, hopens⟩, rfl⟩

theorem exists_cut (text : List Char) : ∃ pieces, Cut pieces text := by
  -- A piece may be of any length, so the induction is on the length of the text.
  induction hlength : text.length using Nat.strong_induction_on generalizing text with
  | _ length ih =>
      subst hlength
      by_cases hnil : text = []
      · exact ⟨[], hnil⟩
      · obtain ⟨piece, rest, hpiece, rfl⟩ := exists_fits hnil
        have hpos := hpiece.length_pos
        have hshorter : rest.length < (piece.chars ++ rest).length := by
          rw [List.length_append]
          omega
        obtain ⟨pieces, hpieces⟩ := ih _ hshorter rest rfl
        exact ⟨piece :: pieces, rest, hpiece, hpieces, rfl⟩

theorem Cut.exists_eq_cons {piece : Piece} {pieces : List Piece} {rest : List Char}
    (hpiece : piece.Fits rest) (h : Cut pieces (piece.chars ++ rest)) :
    ∃ others, pieces = piece :: others ∧ Cut others rest := by
  cases pieces with
  | nil => exact absurd h hpiece.append_ne_nil
  | cons other others =>
      obtain ⟨behind, hother, hrest, heq⟩ := h
      obtain ⟨rfl, rfl⟩ := hpiece.unique hother heq
      exact ⟨others, rfl, hrest⟩

theorem Cut.unique {pieces others : List Piece} {text : List Char} (h : Cut pieces text)
    (h' : Cut others text) : pieces = others := by
  induction pieces generalizing others text with
  | nil =>
      cases others with
      | nil => rfl
      | cons other others =>
          obtain ⟨rest, hother, _, rfl⟩ := h'
          exact absurd h hother.append_ne_nil
  | cons piece pieces ih =>
      obtain ⟨rest, hpiece, hrest, rfl⟩ := h
      obtain ⟨others, rfl, hrest'⟩ := Cut.exists_eq_cons hpiece h'
      rw [ih hrest hrest']

theorem Cut.flatMap_chars {pieces : List Piece} {text : List Char} (h : Cut pieces text) :
    pieces.flatMap Piece.chars = text := by
  induction pieces generalizing text with
  | nil => exact h.symm
  | cons piece pieces ih =>
      obtain ⟨rest, _, hrest, rfl⟩ := h
      rw [List.flatMap_cons, ih hrest]

theorem Cut.cut_iff {pieces : List Piece} {text : List Char} (h : Cut pieces text)
    (others : List Piece) : Cut others text ↔ others = pieces := by
  constructor
  · exact fun h' => h'.unique h
  · rintro rfl
    exact h

theorem Cut.hasLiterals_iff {pieces : List Piece} {text : List Char} (h : Cut pieces text)
    (literals : List (List Char)) :
    HasLiterals text literals ↔ literals = pieces.filterMap Piece.literal? := by
  constructor
  · rintro ⟨others, h', rfl⟩
    rw [h'.unique h]
  · rintro rfl
    exact ⟨pieces, h, rfl⟩

/-! ## Comments outside of literals -/

/-- Texts that end outside of string literals: complete ones and other characters. -/
inductive Outside : List Char → Prop
  | nil : Outside []
  | plain {c : Char} {rest : List Char} (hquote : c ≠ '"') (hrest : Outside rest) :
      Outside (c :: rest)
  | literal {body rest : List Char} (hbody : IsBody body) (hrest : Outside rest) :
      Outside ('"' :: (body ++ '"' :: rest))

/-- Whether a comment begins somewhere outside of the string literals of a text. -/
def HasMarker (text : List Char) : Prop :=
  ∃ before behind, text = before ++ behind ∧ Outside before ∧ OpensComment behind

theorem Cut.hasMarker_of_mem {pieces : List Piece} {text : List Char} (h : Cut pieces text)
    {piece : Piece} (hmem : piece ∈ pieces) (hcomment : piece.isComment = true) :
    HasMarker text := by
  induction pieces generalizing text with
  | nil => cases hmem
  | cons first pieces ih =>
      obtain ⟨rest, hfirst, hrest, rfl⟩ := h
      obtain rfl | hmem := List.mem_cons.1 hmem
      · exact ⟨[], _, rfl, .nil, hfirst.isComment_iff.1 hcomment⟩
      · obtain ⟨before, behind, rfl, hbefore, hopens⟩ := ih hrest hmem
        cases first with
        | plain c => exact ⟨c :: before, behind, rfl, .plain hfirst.1 hbefore, hopens⟩
        | literal written =>
            generalize hbehind : before ++ behind = rest at hfirst
            cases hfirst with
            | @closed body hbody rest =>
                refine ⟨'"' :: (body ++ '"' :: before), behind, ?_, .literal hbody hbefore, hopens⟩
                simp [Piece.chars, hbehind]
            | unclosed _ =>
                rw [(List.append_eq_nil_iff.1 hbehind).2] at hopens
                exact absurd hopens not_opensComment_nil
        | comment written => exact ⟨[], _, rfl, .nil, hfirst.isComment_iff.1 rfl⟩

theorem Cut.exists_isComment_of_opensComment {pieces : List Piece} {text : List Char}
    (h : Cut pieces text) (hopens : OpensComment text) :
    ∃ piece ∈ pieces, piece.isComment = true := by
  cases pieces with
  | nil =>
      obtain rfl : text = [] := h
      exact absurd hopens not_opensComment_nil
  | cons first pieces =>
      obtain ⟨rest, hfirst, _, rfl⟩ := h
      exact ⟨first, List.mem_cons_self, hfirst.isComment_iff.2 hopens⟩

theorem Cut.exists_isComment {pieces : List Piece} {before behind : List Char}
    (h : Cut pieces (before ++ behind)) (hbefore : Outside before) (hopens : OpensComment behind) :
    ∃ piece ∈ pieces, piece.isComment = true := by
  induction hbefore generalizing pieces with
  | nil => exact h.exists_isComment_of_opensComment hopens
  | @plain c before hquote _ ih =>
      by_cases hcomment : OpensComment (c :: (before ++ behind))
      · exact h.exists_isComment_of_opensComment hcomment
      · have hplain : Piece.Fits (.plain c) (before ++ behind) := ⟨hquote, hcomment⟩
        obtain ⟨others, rfl, hrest⟩ := Cut.exists_eq_cons hplain h
        obtain ⟨piece, hmem, hpiece⟩ := ih hrest
        exact ⟨piece, List.mem_cons_of_mem _ hmem, hpiece⟩
  | @literal body before hbody _ ih =>
      have hliteral : Piece.Fits (.literal ('"' :: (body ++ ['"']))) (before ++ behind) :=
        IsLiteral.closed hbody _
      obtain ⟨others, rfl, hrest⟩ :=
        Cut.exists_eq_cons hliteral (by simpa [Piece.chars] using h)
      obtain ⟨piece, hmem, hpiece⟩ := ih hrest
      exact ⟨piece, List.mem_cons_of_mem _ hmem, hpiece⟩

/-- Literals are looked at alone, not comments: a text has a comment if one begins outside them. -/
theorem Cut.hasMarker_iff {pieces : List Piece} {text : List Char} (h : Cut pieces text) :
    HasMarker text ↔ ∃ piece ∈ pieces, piece.isComment = true := by
  constructor
  · rintro ⟨before, behind, rfl, hbefore, hopens⟩
    exact h.exists_isComment hbefore hopens
  · rintro ⟨piece, hmem, hcomment⟩
    exact h.hasMarker_of_mem hmem hcomment

end Json

end ScopedCheck

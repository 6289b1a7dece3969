import Mathlib.Data.List.Flatten
import ScopedCheck.Proofs.Json.Pieces

/-!
# What stripping comments leaves

Of the pieces of a text, stripping takes the comments out and keeps the others.  Where a
comment was, its neighbours do not join into a new one, so what is left is cut into the
pieces that were kept.
-/

namespace ScopedCheck

namespace Json

/-! ## What a scan for comments does with a piece -/

theorem stripCommentsFrom_string_of_neverCloses {text : List Char} (h : NeverCloses text) :
    stripCommentsFrom .string text = text := by
  induction hlength : text.length using Nat.strong_induction_on generalizing text with
  | _ length ih =>
      subst hlength
      cases text with
      | nil => rfl
      | cons c text =>
          rw [stripCommentsFrom_copies.string_cons]
          by_cases hquote : c = '"'
          · subst hquote
            exact absurd rfl (h [] text .nil)
          rw [if_neg hquote]
          by_cases hslash : c = '\\'
          · subst hslash
            rw [if_pos rfl]
            cases text with
            | nil => rfl
            | cons d text =>
                have hbehind : NeverCloses text := fun body rest hbody heq =>
                  h ('\\' :: d :: body) rest (.escaped d hbody) (by rw [heq]; rfl)
                have hshorter : text.length < ('\\' :: d :: text).length := by
                  rw [List.length_cons, List.length_cons]
                  omega
                rw [stripCommentsFrom_copies.escaped_cons, ih _ hshorter hbehind rfl]
          · have hbehind : NeverCloses text := fun body rest hbody heq =>
              h (c :: body) rest (.plain hquote hslash hbody) (by rw [heq]; rfl)
            rw [if_neg hslash, ih _ (by simp) hbehind rfl]

theorem stripComments_cons {c : Char} {rest : List Char} (h : ¬OpensComment (c :: rest)) :
    stripComments (c :: rest) = c :: stripCommentsFrom (.after c) rest := by
  refine stripCommentsFrom_cons (fun behind heq => h (.inl ?_)) fun behind heq => h (.inr ?_)
  · exact ⟨behind, heq.symm⟩
  · exact ⟨behind, heq.symm⟩

theorem head?_stripComments {text : List Char} (h : ¬OpensComment text) :
    (stripComments text).head? = text.head? := by
  cases text with
  | nil => rfl
  | cons c rest => rw [stripComments_cons h, List.head?_cons, List.head?_cons]

/-- A character that begins no comment begins none once the comments behind it are gone. -/
theorem OpensComment.of_stripComments {c : Char} {rest : List Char}
    (h : OpensComment (c :: stripComments rest)) : OpensComment (c :: rest) := by
  obtain rfl : c = '/' := Option.some.inj h.head?_eq
  by_cases hrest : OpensComment rest
  · exact opensComment_slash_iff.2 (.inl hrest.head?_eq)
  · rwa [opensComment_slash_iff, head?_stripComments hrest, ← opensComment_slash_iff] at h

namespace Piece

variable {piece : Piece} {rest : List Char}

theorem Fits.stripComments_comment (h : piece.Fits rest) (hcomment : piece.isComment = true) :
    stripComments (piece.chars ++ rest) = stripComments rest := by
  cases piece with
  | plain c => cases hcomment
  | literal written => cases hcomment
  | comment written =>
      cases h with
      | @block body hbody rest =>
          have hstrip : stripComments ('/' :: '*' :: (body ++ '*' :: '/' :: rest)) =
              stripComments rest := stripCommentsFrom_block hbody rest
          simpa [chars] using hstrip
      | @unclosed body hbody =>
          have hstrip : stripComments ('/' :: '*' :: body) = stripComments [] :=
            stripCommentsFrom_block_end hbody
          simpa [chars] using hstrip
      | @line body rest hbody hrest =>
          cases rest with
          | nil =>
              have hstrip : stripComments ('/' :: '/' :: body) = stripComments [] :=
                stripCommentsFrom_line_end hbody
              simpa [chars] using hstrip
          | cons c rest =>
              obtain rfl := hrest c rfl
              exact stripCommentsFrom_line hbody rest

theorem Fits.stripComments_kept (h : piece.Fits rest) (hkept : piece.isComment = false) :
    stripComments (piece.chars ++ rest) = piece.chars ++ stripComments rest := by
  cases piece with
  | plain c =>
      have hafter : CommentScan.after c = .code := if_neg h.1
      exact (stripComments_cons h.2).trans (by rw [hafter]; rfl)
  | literal written =>
      cases h with
      | @closed body hbody rest =>
          have htoken : Token.IsValid (.quoted body) := hbody
          exact stripCommentsFrom_token htoken rest
      | @unclosed body hopen =>
          have hstrip : stripComments ('"' :: body) = '"' :: stripCommentsFrom .string body := by
            refine stripComments_cons fun hopens => ?_
            cases hopens.head?_eq
          rw [stripCommentsFrom_string_of_neverCloses hopen] at hstrip
          simpa [chars, stripComments] using hstrip
  | comment written => cases hkept

/-- What is kept fits as well before what is left of the rest. -/
theorem Fits.before_stripComments (h : piece.Fits rest) (hkept : piece.isComment = false) :
    piece.Fits (stripComments rest) := by
  cases piece with
  | plain c => exact ⟨h.1, fun hopens => h.2 hopens.of_stripComments⟩
  | literal written =>
      cases h with
      | closed hbody rest => exact .closed hbody _
      | unclosed hopen => exact .unclosed hopen
  | comment written => cases hkept

end Piece

/-- What is left of a text is cut into the pieces that are no comments. -/
theorem Cut.filter_stripComments {pieces : List Piece} {text : List Char} (h : Cut pieces text) :
    Cut (pieces.filter fun piece => !piece.isComment) (stripComments text) := by
  induction pieces generalizing text with
  | nil =>
      obtain rfl : text = [] := h
      rfl
  | cons piece pieces ih =>
      obtain ⟨rest, hpiece, hrest, rfl⟩ := h
      cases hcomment : piece.isComment with
      | true =>
          rw [List.filter_cons_of_neg (by simp [hcomment]),
            hpiece.stripComments_comment hcomment]
          exact ih hrest
      | false =>
          rw [List.filter_cons_of_pos (by simp [hcomment]), hpiece.stripComments_kept hcomment]
          exact ⟨_, hpiece.before_stripComments hcomment, ih hrest, rfl⟩

/-! ## Comments and nothing else -/

theorem filterMap_literal?_filter (pieces : List Piece) :
    (pieces.filter fun piece => !piece.isComment).filterMap Piece.literal? =
      pieces.filterMap Piece.literal? := by
  rw [List.filterMap_filter]
  refine List.filterMap_congr fun piece _ => ?_
  cases piece <;> rfl

theorem stripComments_sublist (text : List Char) : (stripComments text).Sublist text := by
  obtain ⟨pieces, hcut⟩ := exists_cut text
  have hkept : (pieces.filter fun piece => !piece.isComment).Sublist pieces := List.filter_sublist
  have hchars := hkept.flatMap Piece.chars
  rwa [hcut.filter_stripComments.flatMap_chars, hcut.flatMap_chars] at hchars

theorem stripComments_eq_self_iff {text : List Char} :
    stripComments text = text ↔ ¬HasMarker text := by
  obtain ⟨pieces, hcut⟩ := exists_cut text
  have hleft := hcut.filter_stripComments
  have hkept : (pieces.filter fun piece => !piece.isComment) = pieces ↔ ¬HasMarker text := by
    rw [List.filter_eq_self, hcut.hasMarker_iff]
    simp
  rw [← hkept]
  constructor
  · intro heq
    rw [heq] at hleft
    exact hleft.unique hcut
  · intro hall
    rw [← hleft.flatMap_chars, hall, hcut.flatMap_chars]

theorem not_hasMarker_stripComments (text : List Char) : ¬HasMarker (stripComments text) := by
  obtain ⟨pieces, hcut⟩ := exists_cut text
  rw [hcut.filter_stripComments.hasMarker_iff]
  rintro ⟨piece, hmem, hcomment⟩
  simp [hcomment] at hmem

/--
Stripping removes comments and nothing else.

A text has one cut into pieces, and what is left of it has the same pieces but the comments.
-/
theorem stripComments_removes_comments_only (text : List Char) :
    stripComments (stripComments text) = stripComments text ∧
      (stripComments text).Sublist text ∧
      (stripComments text = text ↔ ¬HasMarker text) ∧
      ¬HasMarker (stripComments text) ∧
      (∃ literals, ∀ others, (HasLiterals text others ↔ others = literals) ∧
        (HasLiterals (stripComments text) others ↔ others = literals)) ∧
      ∃ pieces, ∀ others, (Cut others text ↔ others = pieces) ∧
        (Cut others (stripComments text) ↔
          others = pieces.filter fun piece => !piece.isComment) := by
  obtain ⟨pieces, hcut⟩ := exists_cut text
  have hleft := hcut.filter_stripComments
  have hfree := not_hasMarker_stripComments text
  refine ⟨stripComments_eq_self_iff.2 hfree, stripComments_sublist text,
    stripComments_eq_self_iff, hfree, ⟨pieces.filterMap Piece.literal?, fun others => ?_⟩,
    pieces, fun others => ⟨hcut.cut_iff others, hleft.cut_iff others⟩⟩
  have hliterals := hleft.hasLiterals_iff others
  rw [filterMap_literal?_filter] at hliterals
  exact ⟨hcut.hasLiterals_iff others, hliterals⟩

example : stripComments "/a/*/*/\"//\\\"\"/**//\"".toList = "/a\"//\\\"\"/\"".toList := by decide

end Json

end ScopedCheck

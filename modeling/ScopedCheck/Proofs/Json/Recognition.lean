import ScopedCheck.Proofs.Json.Items

/-!
# The reader recognizes the grammar

A text is read as a value exactly when it is laid out, with white space for its
gaps, from tokens that denote the value.
-/

namespace ScopedCheck

namespace Json

variable {σ α : Type}

/-! ## Scalars -/

section Scalars

variable {container : Char → Reader σ Value} {text rest : List Char} {found : Value}

/-- A value is a scalar, or else it begins with an opening bracket. -/
theorem reads_scalarOr_cases (h : Reads (scalarOr container) text found rest) :
    (∃ before token, text = before ++ (token.chars ++ rest) ∧ IsBlank before ∧ token.IsValid ∧
        Scalar token found) ∨
      ∃ before opening behind, text = before ++ opening :: behind ∧ IsBlank before ∧
        (opening = '[' ∨ opening = '{') ∧
          Reads (container opening) (opening :: behind) found rest := by
  obtain ⟨before, left, rfl, hbefore, hleft, _⟩ := exists_blank_append text
  unfold scalarOr at h
  rw [reads_next?_bind_iff, hleft] at h
  split at h
  · exact absurd h not_reads_malformed
  · rename_i hhead
    obtain ⟨behind, rfl⟩ := List.head?_eq_some_iff.1 hhead
    obtain ⟨text, hstring, rfl⟩ := reads_bind_pure_iff.1 h
    obtain ⟨raw, rfl, hraw⟩ := reads_string_iff.1 hstring
    refine .inl ⟨before, .quoted raw, ?_, hbefore, hraw.isBody, .string hraw⟩
    simp only [Token.chars, List.cons_append, List.append_assoc, List.nil_append]
  · obtain ⟨_, hletters, rfl⟩ := reads_bind_pure_iff.1 h
    obtain rfl := reads_literal_iff.1 hletters
    exact .inl ⟨before, .word _, rfl, hbefore, Scalar.null.isValid, .null⟩
  · obtain ⟨_, hletters, rfl⟩ := reads_bind_pure_iff.1 h
    obtain rfl := reads_literal_iff.1 hletters
    exact .inl ⟨before, .word _, rfl, hbefore, Scalar.yes.isValid, .yes⟩
  · obtain ⟨_, hletters, rfl⟩ := reads_bind_pure_iff.1 h
    obtain rfl := reads_literal_iff.1 hletters
    exact .inl ⟨before, .word _, rfl, hbefore, Scalar.no.isValid, .no⟩
  · rename_i hhead
    obtain ⟨behind, rfl⟩ := List.head?_eq_some_iff.1 hhead
    exact .inr ⟨before, '[', behind, rfl, hbefore, .inl rfl, h⟩
  · rename_i hhead
    obtain ⟨behind, rfl⟩ := List.head?_eq_some_iff.1 hhead
    exact .inr ⟨before, '{', behind, rfl, hbefore, .inr rfl, h⟩
  · split at h
    · obtain ⟨n, hnumber, rfl⟩ := reads_bind_pure_iff.1 h
      obtain ⟨c, letters, rfl, hc, hletters, hnumeral⟩ := exists_numeral hnumber
      have hscalar := Scalar.number hc hletters hnumeral
      exact .inl ⟨before, .word (c :: letters), rfl, hbefore, hscalar.isValid, hscalar⟩
    · exact absurd h not_reads_malformed

theorem reads_scalarOr_scalar {token : Token} (h : Scalar token found) {before : List Char}
    (hbefore : IsBlank before) (hrest : Delimits rest) :
    Reads (scalarOr container) (before ++ (token.chars ++ rest)) found rest := by
  unfold scalarOr
  rw [reads_next?_bind_iff, dropWhile_isSpace h.isValid hbefore]
  cases h with
  | null => exact reads_bind_pure_iff.2 ⟨(), reads_literal_iff.2 rfl, rfl⟩
  | yes => exact reads_bind_pure_iff.2 ⟨(), reads_literal_iff.2 rfl, rfl⟩
  | no => exact reads_bind_pure_iff.2 ⟨(), reads_literal_iff.2 rfl, rfl⟩
  | @string raw text hraw =>
      refine reads_bind_pure_iff.2 ⟨text, reads_string_iff.2 ⟨raw, ?_, hraw⟩, rfl⟩
      exact List.append_assoc raw ['"'] rest
  | @number c letters n hfirst hletters hnumeral =>
      have hfirstIs : (c = '-' || c.isDigit) = true := by simpa using hfirst
      have hbegins : ∀ d, (d = '-' || d.isDigit) = false → c ≠ d := by
        rintro d hd rfl
        rw [hd] at hfirstIs
        cases hfirstIs
      have hnumber : Reads (number : Reader σ Number) (c :: letters ++ rest) n rest :=
        hnumeral σ rest hrest
      simp only [Token.chars, List.cons_append, List.head?_cons]
      split
      · rename_i heq
        cases heq
      · rename_i heq
        exact absurd (Option.some.inj heq) (hbegins '"' rfl)
      · rename_i heq
        exact absurd (Option.some.inj heq) (hbegins 'n' rfl)
      · rename_i heq
        exact absurd (Option.some.inj heq) (hbegins 't' rfl)
      · rename_i heq
        exact absurd (Option.some.inj heq) (hbegins 'f' rfl)
      · rename_i heq
        exact absurd (Option.some.inj heq) (hbegins '[' rfl)
      · rename_i heq
        exact absurd (Option.some.inj heq) (hbegins '{' rfl)
      · rename_i heq
        cases heq
        rw [if_pos hfirstIs]
        exact reads_bind_pure_iff.2 ⟨n, hnumber, rfl⟩

theorem reads_scalarOr_container {opening : Char} (hopening : opening = '[' ∨ opening = '{')
    {before behind : List Char} (hbefore : IsBlank before)
    (h : Reads (container opening) (opening :: behind) found rest) :
    Reads (scalarOr container) (before ++ opening :: behind) found rest := by
  unfold scalarOr
  rw [reads_next?_bind_iff]
  obtain rfl | rfl := hopening
  · rw [dropWhile_blank_append hbefore (by decide)]
    exact h
  · rw [dropWhile_blank_append hbefore (by decide)]
    exact h

end Scalars

/-! ## Members -/

theorem reads_name_iff {text rest : List Char} {found : String} :
    Reads (name : Reader σ String) text found rest ↔
      ∃ before raw, text = before ++ '"' :: (raw ++ '"' :: rest) ∧ IsBlank before ∧
        Quoted raw found.toList := by
  obtain ⟨before, left, rfl, hbefore, hleft, hhead⟩ := exists_blank_append text
  unfold name
  rw [reads_next?_bind_iff, hleft]
  constructor
  · intro h
    split at h
    · exact absurd h not_reads_malformed_bind
    · rename_i hquote
      obtain ⟨behind, rfl⟩ := List.head?_eq_some_iff.1 (not_not.1 hquote)
      obtain ⟨raw, rfl, hraw⟩ := reads_string_iff.1 h
      exact ⟨before, raw, rfl, hbefore, hraw⟩
  · rintro ⟨gap, raw, htext, hgap, hraw⟩
    rw [htext, dropWhile_blank_append hgap (by decide)] at hleft
    subst hleft
    rw [if_neg (by simp)]
    exact reads_string_iff.2 ⟨raw, rfl, hraw⟩

theorem reads_colon_iff {text rest : List Char} {found : Unit} :
    Reads (colon : Reader σ Unit) text found rest ↔
      ∃ before, text = before ++ ':' :: rest ∧ IsBlank before := by
  obtain ⟨before, left, rfl, hbefore, hleft, hhead⟩ := exists_blank_append text
  unfold colon
  rw [reads_next?_bind_iff, hleft]
  constructor
  · intro h
    split at h
    · exact absurd h not_reads_malformed_bind
    · rename_i hcolon
      obtain ⟨behind, rfl⟩ := List.head?_eq_some_iff.1 (not_not.1 hcolon)
      rw [reads_advance_iff, List.drop_one, List.tail_cons] at h
      exact ⟨before, by rw [h], hbefore⟩
  · rintro ⟨gap, htext, hgap⟩
    rw [htext, dropWhile_blank_append hgap (by decide)] at hleft
    subst hleft
    rw [if_neg (by simp)]
    exact reads_advance_iff.2 rfl

def member (item : Reader σ Value) : Reader σ (String × Value) := do
  let name ← memberName
  return (name, ← item)

theorem reads_member_iff {item : Reader σ Value} {text rest : List Char}
    {found : String × Value} :
    Reads (member item) text found rest ↔
      ∃ middle last, Reads (name : Reader σ String) text found.1 middle ∧
        Reads (colon : Reader σ Unit) middle () last ∧ Reads item last found.2 rest := by
  simp only [member, memberName, reads_bind_iff, reads_pure_iff]
  constructor
  · rintro ⟨_, _, ⟨name, middle, hname, _, last, hcolon, rfl, rfl⟩, value, _, hvalue, rfl, rfl⟩
    exact ⟨middle, _, hname, hcolon, hvalue⟩
  · rintro ⟨middle, last, hname, hcolon, hvalue⟩
    exact ⟨found.1, last, ⟨found.1, middle, hname, (), last, hcolon, rfl, rfl⟩,
      found.2, rest, hvalue, rfl, rfl⟩

theorem Member.exists_reads {inner : List Token → Value → Prop} {tokens : List Token}
    {found : String × Value} (h : Member inner tokens found) {used : List Char}
    (hused : Spelled tokens used) (rest : List Char) :
    ∃ others last middle, inner others found.2 ∧ others.length ≤ tokens.length ∧
      Spelled others last ∧ Reads (name : Reader σ String) (used ++ rest) found.1 middle ∧
        Reads (colon : Reader σ Unit) middle () (last ++ rest) := by
  cases h with
  | @mk raw tokens name value hraw hvalue =>
      obtain ⟨before, behind, hbefore, _, ⟨gap, last, hgap, _, hlast, rfl⟩, rfl⟩ := hused
      refine ⟨tokens, last, gap ++ ':' :: (last ++ rest), hvalue, Nat.le_add_right _ 2, hlast,
        reads_name_iff.2 ⟨before, raw, ?_, hbefore, hraw⟩, reads_colon_iff.2 ⟨gap, rfl, hgap⟩⟩
      simp only [Token.chars, List.append_assoc, List.cons_append, List.nil_append]

theorem recognizes_member {item : Reader σ Value} {inner : List Token → Value → Prop}
    (hitem : Recognizes item inner) : Recognizes (member item) (Member inner) where
  joined := fun _ _ h => h.joined hitem.joined
  sound := by
    intro text found rest h
    obtain ⟨middle, last, hname, hcolon, hvalue⟩ := reads_member_iff.1 h
    obtain ⟨before, raw, rfl, hbefore, hraw⟩ := reads_name_iff.1 hname
    obtain ⟨gap, rfl, hgap⟩ := reads_colon_iff.1 hcolon
    obtain ⟨tokens, used, rfl, hused, htokens⟩ := hitem.sound _ _ _ hvalue
    obtain ⟨name, value⟩ := found
    refine ⟨.quoted raw :: .mark ':' :: tokens,
      before ++ ((Token.quoted raw).chars ++ (gap ++ ':' :: used)), ?_,
      ⟨before, _, hbefore, hraw.isBody, spelled_mark rfl hgap hused, rfl⟩, .mk hraw htokens⟩
    simp only [Token.chars, List.append_assoc, List.cons_append, List.nil_append]
  complete := by
    intro tokens used found rest h hused hrest
    obtain ⟨others, last, middle, hvalue, _, hlast, hname, hcolon⟩ := h.exists_reads hused rest
    exact reads_member_iff.2 ⟨middle, last ++ rest, hname, hcolon,
      hitem.complete others last found.2 rest hvalue hlast hrest⟩

/-! ## Values -/

theorem prepends_item (item : Reader σ α) :
    Prepends (fun found => do return (← item) :: found) item :=
  fun _ _ _ _ => reads_bind_pure_iff

theorem prepends_member (item : Reader σ Value) :
    Prepends (fun found => do
      let name ← memberName
      return (name, ← item) :: found) (member item) := by
  intro state text found rest
  simp only [member, reads_bind_iff, reads_pure_iff]
  constructor
  · rintro ⟨name, middle, hname, value, _, hvalue, rfl, rfl⟩
    exact ⟨_, ⟨name, middle, hname, value, _, hvalue, rfl, rfl⟩, rfl⟩
  · rintro ⟨_, ⟨name, middle, hname, value, _, hvalue, rfl, rfl⟩, rfl⟩
    exact ⟨name, middle, hname, value, _, hvalue, rfl, rfl⟩

theorem reads_array_iff {item : Reader σ Value} {text rest : List Char} {found : Value} :
    Reads (containerOf item '[') text found rest ↔
      ∃ items, Reads (foldContainer ']' (fun found => do return (← item) :: found) []) text items
        rest ∧ found = .array items.reverse := by
  unfold containerOf arrayOf
  rw [if_pos rfl, reads_bind_pure_iff]
  constructor
  · rintro ⟨_, hreversed, rfl⟩
    obtain ⟨items, hitems, rfl⟩ := reads_bind_pure_iff.1 hreversed
    exact ⟨items, hitems, rfl⟩
  · rintro ⟨items, hitems, rfl⟩
    exact ⟨_, reads_bind_pure_iff.2 ⟨items, hitems, rfl⟩, rfl⟩

theorem reads_object_iff {item : Reader σ Value} {text rest : List Char} {found : Value} :
    Reads (containerOf item '{') text found rest ↔
      ∃ members, Reads (foldContainer '}' (fun found => do
        let name ← memberName
        return (name, ← item) :: found) []) text members rest ∧
          found = .object members.reverse := by
  unfold containerOf
  rw [if_neg (by decide)]
  exact reads_bind_pure_iff

theorem recognizes_scalar : Recognizes (value 0 : Reader σ Value) (Denotes 0) where
  joined := fun _ _ => Denotes.joined
  sound := by
    intro text found rest h
    obtain ⟨before, token, rfl, hbefore, htoken, hscalar⟩ | ⟨_, _, _, _, _, _, hbad⟩ :=
      reads_scalarOr_cases h
    · exact ⟨[token], before ++ token.chars, by rw [List.append_assoc],
        spelled_singleton htoken hbefore, token, rfl, hscalar⟩
    · exact absurd hbad not_reads_malformed
  complete := by
    intro tokens used found rest h hused hrest
    obtain ⟨token, rfl, hscalar⟩ := h
    obtain ⟨before, _, hbefore, _, rfl, rfl⟩ := hused
    rw [List.append_nil, List.append_assoc]
    exact reads_scalarOr_scalar hscalar hbefore hrest

theorem recognizes_nested {item : Reader σ Value} {inner : List Token → Value → Prop}
    (hitem : Recognizes item inner) :
    Recognizes (scalarOr (containerOf item)) (Nested inner) where
  joined := fun _ _ h => h.joined hitem.joined
  sound := by
    intro text found rest h
    obtain ⟨before, token, rfl, hbefore, htoken, hscalar⟩ |
      ⟨before, opening, behind, rfl, hbefore, hopening, hcontainer⟩ := reads_scalarOr_cases h
    · exact ⟨[token], before ++ token.chars, by rw [List.append_assoc],
        spelled_singleton htoken hbefore, .scalar hscalar⟩
    · obtain rfl | rfl := hopening
      · obtain ⟨items, hitems, rfl⟩ := reads_array_iff.1 hcontainer
        obtain ⟨tokens, used, gap, hlisted, hused, hgap, rfl⟩ :=
          listed_of_reads hitem (prepends_item item) (.inl rfl) hitems
        refine ⟨_, before ++ '[' :: (used ++ (gap ++ [']'])), ?_,
          spelled_mark rfl hbefore (spelled_concat hused hgap rfl), .array hlisted⟩
        simp only [List.append_assoc, List.cons_append, List.nil_append]
      · obtain ⟨members, hmembers, rfl⟩ := reads_object_iff.1 hcontainer
        obtain ⟨tokens, used, gap, hlisted, hused, hgap, rfl⟩ :=
          listed_of_reads (recognizes_member hitem) (prepends_member item) (.inr rfl) hmembers
        refine ⟨_, before ++ '{' :: (used ++ (gap ++ ['}'])), ?_,
          spelled_mark rfl hbefore (spelled_concat hused hgap rfl), .object hlisted⟩
        simp only [List.append_assoc, List.cons_append, List.nil_append]
  complete := by
    intro tokens used found rest h hused hrest
    cases h with
    | scalar hscalar =>
        obtain ⟨before, _, hbefore, _, rfl, rfl⟩ := hused
        rw [List.append_nil, List.append_assoc]
        exact reads_scalarOr_scalar hscalar hbefore hrest
    | @array tokens items hitems =>
        obtain ⟨before, used, gap, hbefore, hused, hgap, htext⟩ :=
          exists_of_spelled_brackets hused
        have hread := reads_of_listed hitem.accepts (prepends_item item) (.inl rfl) hitems hused
          hgap '[' rest
        have hcontainer := reads_array_iff.2 ⟨_, hread, rfl⟩
        rw [List.reverse_reverse] at hcontainer
        rw [htext]
        exact reads_scalarOr_container (.inl rfl) hbefore hcontainer
    | @object tokens members hmembers =>
        obtain ⟨before, used, gap, hbefore, hused, hgap, htext⟩ :=
          exists_of_spelled_brackets hused
        have hread := reads_of_listed (recognizes_member hitem).accepts (prepends_member item) (.inr rfl)
          hmembers hused hgap '{' rest
        have hcontainer := reads_object_iff.2 ⟨_, hread, rfl⟩
        rw [List.reverse_reverse] at hcontainer
        rw [htext]
        exact reads_scalarOr_container (.inr rfl) hbefore hcontainer

theorem recognizes_value (depth : Nat) :
    Recognizes (value depth : Reader σ Value) (Denotes depth) := by
  induction depth with
  | zero => exact recognizes_scalar
  | succ depth ih => exact recognizes_nested ih

theorem parse?_eq_some_iff_reads {text : String} {found : Value} :
    parse? text = some found ↔ ∃ rest,
      Reads (value maxDepth : Reader Empty Value) text.toList found rest ∧ IsBlank rest := by
  unfold parse? readAll Reads
  cases hrun : (value maxDepth : Reader Empty Value).run text.toList with
  | error fault => simp [bind, Except.bind]
  | ok pair =>
      obtain ⟨value, rest⟩ := pair
      have hblank : rest.all isSpace = true ↔ IsBlank rest := List.all_eq_true
      by_cases hrest : IsBlank rest
      · simp [bind, Except.bind, hblank.2 hrest, pure, Except.pure, hrest]
      · have hfalse : rest.all isSpace = false := by
          rw [Bool.eq_false_iff]
          exact fun h => hrest (hblank.1 h)
        simp [bind, Except.bind, hfalse, throw, throwThe, MonadExceptOf.throw, hrest]

/-- A text is read as a value exactly when it is laid out from tokens that denote the value. -/
theorem parse?_eq_some_iff {text : String} {found : Value} :
    parse? text = some found ↔
      ∃ tokens, Laid IsBlank IsBlank tokens text.toList ∧ Denotes maxDepth tokens found := by
  rw [parse?_eq_some_iff_reads]
  constructor
  · rintro ⟨rest, hread, hrest⟩
    obtain ⟨tokens, used, htext, hused, htokens⟩ := (recognizes_value maxDepth).sound _ _ _ hread
    have hlaid : Laid IsBlank IsBlank (tokens ++ []) (used ++ rest) := hused.append hrest
    rw [List.append_nil, ← htext] at hlaid
    exact ⟨tokens, hlaid, htokens⟩
  · rintro ⟨tokens, hlaid, htokens⟩
    rw [← List.append_nil tokens] at hlaid
    obtain ⟨used, rest, hused, hrest, htext⟩ := hlaid.split
    rw [htext]
    exact ⟨rest, (recognizes_value maxDepth).complete _ _ _ _ htokens hused
      (delimits_of_isBlank hrest), hrest⟩

end Json

end ScopedCheck

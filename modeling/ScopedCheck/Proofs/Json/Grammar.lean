import ScopedCheck.Proofs.Json.Quoted

/-!
# The grammar of JSON

`Denotes depth tokens value` says that the tokens spell the value with at most
`depth` containers inside one another.  It is the grammar by tokens alone; white
space is a matter of how they are laid out.
-/

namespace ScopedCheck

namespace Json

/-- A token that is a value by itself. -/
inductive Scalar : Token → Value → Prop
  | null : Scalar (.word ['n', 'u', 'l', 'l']) .null
  | yes : Scalar (.word ['t', 'r', 'u', 'e']) (.bool true)
  | no : Scalar (.word ['f', 'a', 'l', 's', 'e']) (.bool false)
  | number {c : Char} {letters : List Char} {n : Number} (hfirst : c = '-' ∨ c.isDigit = true)
      (hletters : ∀ d ∈ letters, isWordChar d = true) (hnumeral : IsNumeral (c :: letters) n) :
      Scalar (.word (c :: letters)) (.number n)
  | string {raw : List Char} {text : String} (hraw : Quoted raw text.toList) :
      Scalar (.quoted raw) (.string text)

section Items

variable {α : Type} (item : List Token → α → Prop)

inductive Further : List Token → List α → Prop
  | nil : Further [] []
  | cons {tokens rest : List Token} {a : α} {found : List α} (ha : item tokens a)
      (hrest : Further rest found) : Further (.mark ',' :: (tokens ++ rest)) (a :: found)

inductive Listed : List Token → List α → Prop
  | nil : Listed [] []
  | cons {tokens rest : List Token} {a : α} {found : List α} (ha : item tokens a)
      (hrest : Further item rest found) : Listed (tokens ++ rest) (a :: found)

end Items

inductive Member (inner : List Token → Value → Prop) : List Token → String × Value → Prop
  | mk {raw : List Char} {tokens : List Token} {name : String} {value : Value}
      (hname : Quoted raw name.toList) (hvalue : inner tokens value) :
      Member inner (.quoted raw :: .mark ':' :: tokens) (name, value)

/-- A scalar, or a container whose contents are given. -/
inductive Nested (inner : List Token → Value → Prop) : List Token → Value → Prop
  | scalar {token : Token} {value : Value} (h : Scalar token value) : Nested inner [token] value
  | array {tokens : List Token} {items : List Value} (h : Listed inner tokens items) :
      Nested inner (.mark '[' :: (tokens ++ [.mark ']'])) (.array items)
  | object {tokens : List Token} {members : List (String × Value)}
      (h : Listed (Member inner) tokens members) :
      Nested inner (.mark '{' :: (tokens ++ [.mark '}'])) (.object members)

def Denotes : Nat → List Token → Value → Prop
  | 0 => fun tokens value => ∃ token, tokens = [token] ∧ Scalar token value
  | depth + 1 => Nested (Denotes depth)

theorem Scalar.isValid {token : Token} {value : Value} (h : Scalar token value) :
    token.IsValid := by
  cases h with
  | null => exact ⟨List.cons_ne_nil _ _, List.all_eq_true.1 (by decide)⟩
  | yes => exact ⟨List.cons_ne_nil _ _, List.all_eq_true.1 (by decide)⟩
  | no => exact ⟨List.cons_ne_nil _ _, List.all_eq_true.1 (by decide)⟩
  | number hfirst hletters _ =>
      refine ⟨List.cons_ne_nil _ _, List.forall_mem_cons.2 ⟨?_, hletters⟩⟩
      obtain rfl | hdigit := hfirst
      · decide
      · exact isWordChar_of_isDigit hdigit
  | string hraw => exact hraw.isBody

/-! ## Neighbours -/

/-- Whether one token may stand right behind another in what the grammar allows. -/
structure Adjacent (a b : Token) : Prop where
  parted : ¬(a.isWord = true ∧ b.isWord = true)
  unended : ¬(a = .mark ',' ∧ b.closes = true)

/-- Tokens that can be an item of a list. -/
structure Joined (tokens : List Token) : Prop where
  chain : tokens.IsChain Adjacent
  head : ∃ token ∈ tokens.head?, token ≠ .mark ',' ∧ token.closes = false
  last : ∀ token ∈ tokens.getLast?, token ≠ .mark ','

theorem Joined.exists_cons {tokens : List Token} (h : Joined tokens) :
    ∃ token rest, tokens = token :: rest ∧ token ≠ .mark ',' ∧ token.closes = false := by
  obtain ⟨token, hmem, hcomma, hcloses⟩ := h.head
  obtain ⟨rest, rfl⟩ := List.head?_eq_some_iff.1 hmem
  exact ⟨token, rest, rfl, hcomma, hcloses⟩

theorem Joined.ne_nil {tokens : List Token} (h : Joined tokens) : tokens ≠ [] := by
  obtain ⟨token, rest, rfl, _⟩ := h.exists_cons
  exact List.cons_ne_nil token rest

theorem Parted.of_adjacent {tokens : List Token} (h : tokens.IsChain Adjacent) : Parted tokens :=
  h.imp fun _ _ => Adjacent.parted

theorem adjacent_of_mark {c : Char} {token : Token} (h : c = ',' → token.closes = false) :
    Adjacent (.mark c) token where
  parted := fun hwords => Bool.noConfusion hwords.1
  unended := by
    rintro ⟨hcomma, hcloses⟩
    rw [h (Token.mark.inj hcomma)] at hcloses
    cases hcloses

theorem adjacent_of_ne_comma {token other : Token} (h : token ≠ .mark ',')
    (hword : other.isWord = false) : Adjacent token other where
  parted := fun hwords => by
    rw [hword] at hwords
    cases hwords.2
  unended := fun hended => h hended.1

theorem chain_append {tokens others : List Token} (htokens : tokens.IsChain Adjacent)
    (hlast : ∀ token ∈ tokens.getLast?, token ≠ .mark ',') (hothers : others.IsChain Adjacent)
    (hhead : ∀ token ∈ others.head?, token.isWord = false) :
    (tokens ++ others).IsChain Adjacent := by
  refine List.isChain_append.2 ⟨htokens, hothers, fun token htoken other hother => ?_⟩
  exact adjacent_of_ne_comma (hlast token htoken) (hhead other hother)

theorem last_append {tokens others : List Token}
    (htokens : ∀ token ∈ tokens.getLast?, token ≠ .mark ',')
    (hothers : ∀ token ∈ others.getLast?, token ≠ .mark ',') :
    ∀ token ∈ (tokens ++ others).getLast?, token ≠ .mark ',' := by
  intro token htoken
  rw [List.getLast?_append, Option.mem_def, Option.or_eq_some_iff] at htoken
  obtain hother | ⟨_, htoken⟩ := htoken
  · exact hothers token hother
  · exact htokens token htoken

theorem Scalar.joined {token : Token} {value : Value} (h : Scalar token value) :
    Joined [token] := by
  have htoken : token ≠ .mark ',' ∧ token.closes = false := by
    cases h <;> exact ⟨Token.noConfusion, rfl⟩
  refine ⟨List.isChain_singleton token, ⟨token, rfl, htoken⟩, ?_⟩
  intro other hother
  obtain rfl := Option.some.inj hother
  exact htoken.1

section Items

variable {α : Type} {item : List Token → α → Prop}

/-- Items behind commas begin with one and do not end with one. -/
theorem Further.chain (hitem : ∀ tokens a, item tokens a → Joined tokens) {tokens : List Token}
    {found : List α} (h : Further item tokens found) :
    tokens.IsChain Adjacent ∧ (∀ token ∈ tokens.head?, token = .mark ',') ∧
      ∀ token ∈ tokens.getLast?, token ≠ .mark ',' := by
  induction h with
  | nil => exact ⟨List.isChain_nil, by simp, by simp⟩
  | @cons tokens rest a found ha _ ih =>
      obtain ⟨hchain, hhead, hlast⟩ := ih
      have hjoined := hitem tokens a ha
      have hbehind := chain_append hjoined.chain hjoined.last hchain (by
        intro token htoken
        rw [hhead token htoken]
        rfl)
      have hend := last_append hjoined.last hlast
      obtain ⟨token, behind, rfl, _, hcloses⟩ := hjoined.exists_cons
      rw [List.cons_append] at hbehind hend ⊢
      refine ⟨List.isChain_cons_cons.2 ⟨adjacent_of_mark fun _ => hcloses, hbehind⟩, ?_, ?_⟩
      · intro comma hcomma
        exact (Option.some.inj hcomma).symm
      · rwa [List.getLast?_cons_cons]

theorem Further.head_not_word (hitem : ∀ tokens a, item tokens a → Joined tokens)
    {tokens : List Token} {found : List α} (h : Further item tokens found) :
    ∀ token ∈ tokens.head?, token.isWord = false := by
  intro token htoken
  rw [(h.chain hitem).2.1 token htoken]
  rfl

theorem joined_of_brackets {tokens : List Token} {opening closing : Char}
    (hopening : opening = '[' ∨ opening = '{') (hclosing : closing = ']' ∨ closing = '}')
    (hchain : tokens.IsChain Adjacent) (hlast : ∀ token ∈ tokens.getLast?, token ≠ .mark ',') :
    Joined (.mark opening :: (tokens ++ [.mark closing])) := by
  have hcomma : opening ≠ ',' ∧ closing ≠ ',' := by
    obtain rfl | rfl := hopening <;> obtain rfl | rfl := hclosing <;> decide
  have hopens : Token.closes (.mark opening) = false := by
    obtain rfl | rfl := hopening <;> rfl
  have hbehind := chain_append hchain hlast (List.isChain_singleton (Token.mark closing))
    (by simp [Token.isWord])
  refine ⟨?_, ⟨.mark opening, rfl, by simpa using hcomma.1, hopens⟩, ?_⟩
  · refine List.isChain_cons.2 ⟨fun token _ => adjacent_of_mark fun h => ?_, hbehind⟩
    exact absurd h hcomma.1
  · intro token htoken
    rw [← List.cons_append, List.getLast?_concat] at htoken
    obtain rfl := Option.some.inj htoken
    simpa using hcomma.2

theorem Listed.joined (hitem : ∀ tokens a, item tokens a → Joined tokens) {tokens : List Token}
    {found : List α} (h : Listed item tokens found) {opening closing : Char}
    (hopening : opening = '[' ∨ opening = '{') (hclosing : closing = ']' ∨ closing = '}') :
    Joined (.mark opening :: (tokens ++ [.mark closing])) := by
  cases h with
  | nil => exact joined_of_brackets hopening hclosing List.isChain_nil (by simp)
  | cons ha hrest =>
      have hjoined := hitem _ _ ha
      obtain ⟨hchain, _, hlast⟩ := hrest.chain hitem
      refine joined_of_brackets hopening hclosing ?_ (last_append hjoined.last hlast)
      exact chain_append hjoined.chain hjoined.last hchain (hrest.head_not_word hitem)

theorem Member.joined {inner : List Token → Value → Prop}
    (hinner : ∀ tokens value, inner tokens value → Joined tokens) {tokens : List Token}
    {member : String × Value} (h : Member inner tokens member) : Joined tokens := by
  cases h with
  | @mk raw tokens name value _ hvalue =>
      have hjoined := hinner tokens value hvalue
      have hchain := hjoined.chain
      have hlast := hjoined.last
      obtain ⟨token, behind, rfl, _, _⟩ := hjoined.exists_cons
      refine ⟨?_, ⟨.quoted raw, rfl, Token.noConfusion, rfl⟩, ?_⟩
      · refine List.isChain_cons_cons.2 ⟨adjacent_of_ne_comma Token.noConfusion rfl, ?_⟩
        exact List.isChain_cons_cons.2 ⟨adjacent_of_mark fun h => absurd h (by decide), hchain⟩
      · rwa [List.getLast?_cons_cons, List.getLast?_cons_cons]

end Items

theorem Nested.joined {inner : List Token → Value → Prop}
    (hinner : ∀ tokens value, inner tokens value → Joined tokens) {tokens : List Token}
    {value : Value} (h : Nested inner tokens value) : Joined tokens := by
  cases h with
  | scalar hscalar => exact hscalar.joined
  | array hitems => exact hitems.joined hinner (.inl rfl) (.inl rfl)
  | object hmembers =>
      exact hmembers.joined (fun _ _ h => h.joined hinner) (.inr rfl) (.inr rfl)

theorem Denotes.joined {depth : Nat} {tokens : List Token} {value : Value}
    (h : Denotes depth tokens value) : Joined tokens := by
  induction depth generalizing tokens value with
  | zero =>
      obtain ⟨token, rfl, hscalar⟩ := h
      exact hscalar.joined
  | succ depth ih => exact Nested.joined (fun _ _ => ih) h

end Json

end ScopedCheck

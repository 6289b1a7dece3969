import ScopedCheck.Proofs.Json.Grammar

/-!
# Lists of items

A reader of items, with commas between them and a bracket behind them, recognizes
the lists of what a reader of one item recognizes.
-/

namespace ScopedCheck

namespace Json

variable {σ α : Type}

/-- A reader that takes the layouts of a grammar off a text, and nothing else. -/
structure Recognizes (reader : Reader σ α) (grammar : List Token → α → Prop) : Prop where
  joined : ∀ tokens found, grammar tokens found → Joined tokens
  sound : ∀ text found rest, Reads reader text found rest →
    ∃ tokens used, text = used ++ rest ∧ Spelled tokens used ∧ grammar tokens found
  complete : ∀ tokens used found rest, grammar tokens found → Spelled tokens used →
    Delimits rest → Reads reader (used ++ rest) found rest

/-- A reader that takes every layout of a grammar, up to what delimits it. -/
structure Accepts (reader : Reader σ α) (grammar : List Token → α → Prop) : Prop where
  joined : ∀ tokens found, grammar tokens found → Joined tokens
  complete : ∀ tokens used found rest, grammar tokens found → Spelled tokens used →
    Delimits rest → Reads reader (used ++ rest) found rest

theorem Recognizes.accepts {reader : Reader σ α} {grammar : List Token → α → Prop}
    (h : Recognizes reader grammar) : Accepts reader grammar where
  joined := h.joined
  complete := h.complete

/-! ## Lists of items -/

/-- The brackets that may close a list. -/
def Closing (c : Char) : Prop :=
  c = ']' ∨ c = '}'

section More

variable {close c : Char} {first answer : Bool} {before behind text rest : List Char}

theorem Closing.isSpace_eq_false (h : Closing c) : isSpace c = false := by
  obtain rfl | rfl := h <;> decide

theorem reads_next?_bind_append_iff {next : Option Char → Reader σ α} {found : α}
    (hbefore : IsBlank before) (hc : isSpace c = false) :
    Reads (next? >>= next) (before ++ c :: behind) found rest ↔
      Reads (next (some c)) (c :: behind) found rest := by
  rw [reads_next?_bind_iff, dropWhile_blank_append hbefore hc, List.head?_cons]

theorem not_reads_more_blank (h : IsBlank text) :
    ¬ Reads (more close first : Reader σ Bool) text answer rest := by
  have hdrop : text.dropWhile isSpace = [] := by
    rw [← List.append_nil text, List.dropWhile_append_of_pos h]
    rfl
  unfold more
  rw [reads_next?_bind_iff, hdrop]
  exact not_reads_malformed

theorem reads_more_close_iff (hclose : Closing close) (hbefore : IsBlank before) :
    Reads (more close first : Reader σ Bool) (before ++ close :: behind) answer rest ↔
      answer = false ∧ rest = close :: behind := by
  unfold more
  rw [reads_next?_bind_append_iff hbefore hclose.isSpace_eq_false]
  simp only [if_true]
  exact reads_pure_iff

theorem reads_more_first_iff (hbefore : IsBlank before) (hc : isSpace c = false)
    (hne : c ≠ close) :
    Reads (more close true : Reader σ Bool) (before ++ c :: behind) answer rest ↔
      answer = true ∧ rest = c :: behind := by
  unfold more
  rw [reads_next?_bind_append_iff hbefore hc]
  simp only [if_neg hne, if_true]
  exact reads_pure_iff

/-- After an item there has to be a comma, and no closing bracket behind it. -/
theorem reads_more_comma_iff (hbefore : IsBlank before) (hc : isSpace c = false)
    (hne : c ≠ close) :
    Reads (more close false : Reader σ Bool) (before ++ c :: behind) answer rest ↔
      c = ',' ∧ answer = true ∧
        ∃ d after, behind.dropWhile isSpace = d :: after ∧ d ≠ close ∧ rest = d :: after := by
  unfold more
  rw [reads_next?_bind_append_iff hbefore hc]
  simp only [if_neg hne, Bool.false_eq_true, if_false]
  by_cases hcomma : c = ','
  · simp only [hcomma, ne_eq, not_true, if_false, true_and]
    rw [reads_advance_bind_iff, reads_next?_bind_iff, List.drop_one, List.tail_cons]
    cases behind.dropWhile isSpace with
    | nil => simpa using not_reads_malformed
    | cons d after =>
        by_cases hd : d = close
        · simpa [hd] using not_reads_malformed
        · simpa [hd] using reads_pure_iff
  · simp only [ne_eq, hcomma, not_false_iff, if_true, false_and, iff_false]
    exact not_reads_malformed_bind

end More

theorem delimits_blank_append (hbefore : IsBlank before) (hclose : Closing close)
    (behind : List Char) : Delimits (before ++ close :: behind) := by
  cases before with
  | nil =>
      intro c hc
      obtain rfl := Option.some.inj hc
      obtain rfl | rfl := hclose <;> decide
  | cons d before =>
      intro c hc
      obtain rfl := Option.some.inj hc
      exact isWordChar_of_isSpace (hbefore d List.mem_cons_self)

/-- The first item of a list does not begin like the end of the list. -/
theorem Joined.exists_begin {tokens : List Token} (h : Joined tokens) (hclose : Closing close)
    {used : List Char} (hused : Spelled tokens used) :
    ∃ gap c after, used = gap ++ c :: after ∧ IsBlank gap ∧ isSpace c = false ∧ c ≠ close ∧
      Spelled tokens (c :: after) := by
  obtain ⟨token, tokens, rfl, _, hcloses⟩ := h.exists_cons
  obtain ⟨gap, letters, hgap, htoken, hletters, rfl⟩ := hused
  obtain ⟨c, name, hchars, hc, hword⟩ := Token.IsValid.chars_eq_cons htoken
  refine ⟨gap, c, name ++ letters, by rw [hchars, List.cons_append], hgap, hc, ?_,
    [], letters, isBlank_nil, htoken, hletters, by rw [hchars]; rfl⟩
  rintro rfl
  cases token with
  | mark d =>
      obtain rfl := (List.cons.inj hchars).1
      obtain rfl | rfl := hclose <;> cases hcloses
  | quoted body =>
      obtain rfl := (List.cons.inj hchars).1
      obtain h | h := hclose <;> cases h
  | word letters =>
      obtain rfl | rfl := hclose <;> cases hword

/-- Readers that put one more item before the ones they are given. -/
def Prepends (step : List α → Reader σ (List α)) (item : Reader σ α) : Prop :=
  ∀ state text found rest,
    Reads (step state) text found rest ↔ ∃ a, Reads item text a rest ∧ found = a :: state

section Items

variable {item : Reader σ α} {grammar : List Token → α → Prop} {step : List α → Reader σ (List α)}
  {close : Char}

/-- White space before an item belongs to the layout of the item. -/
theorem Recognizes.exists_spelled (hitem : Recognizes item grammar) {text rest gap : List Char}
    {a : α} (hread : Reads item text a rest) (hgap : IsBlank gap) :
    ∃ tokens used, gap ++ text = used ++ rest ∧ Spelled tokens used ∧ grammar tokens a := by
  obtain ⟨tokens, used, rfl, hused, ha⟩ := hitem.sound _ _ _ hread
  have hne := (hitem.joined tokens a ha).ne_nil
  exact ⟨tokens, gap ++ used, (List.append_assoc gap used rest).symm, blank_append hne hused hgap,
    ha⟩

theorem further_of_reads (hitem : Recognizes item grammar) (hstep : Prepends step item)
    (hclose : Closing close) {fuel : Nat} {text rest : List Char} {state found : List α}
    (h : Reads (foldItems close step fuel false state) text found rest) :
    ∃ tokens items used before behind, Further grammar tokens items ∧ Spelled tokens used ∧
      IsBlank before ∧ text = used ++ (before ++ rest) ∧ rest = close :: behind ∧
        found = items.reverse ++ state := by
  induction fuel generalizing text state with
  | zero => exact absurd h not_reads_malformed
  | succ fuel ih =>
      rw [foldItems, reads_bind_iff] at h
      obtain ⟨answer, middle, hmore, hnext⟩ := h
      obtain ⟨before, left, rfl, hbefore, _, hhead⟩ := exists_blank_append text
      cases left with
      | nil =>
          rw [List.append_nil] at hmore
          exact absurd hmore (not_reads_more_blank hbefore)
      | cons c behind =>
          by_cases hc : c = close
          · subst hc
            obtain ⟨rfl, rfl⟩ := (reads_more_close_iff hclose hbefore).1 hmore
            obtain ⟨rfl, rfl⟩ := reads_pure_iff.1 hnext
            exact ⟨[], [], [], before, behind, .nil, rfl, hbefore, rfl, rfl, rfl⟩
          · obtain ⟨rfl, rfl, d, after, hdrop, hd, rfl⟩ :=
              (reads_more_comma_iff hbefore (hhead c rfl) hc).1 hmore
            rw [if_pos rfl, reads_bind_iff] at hnext
            obtain ⟨extended, later, hextended, hfold⟩ := hnext
            obtain ⟨a, hread, rfl⟩ := (hstep state (d :: after) extended later).1 hextended
            obtain ⟨gap, left, rfl, hgap, hleft, _⟩ := exists_blank_append behind
            rw [hleft] at hdrop
            obtain ⟨tokens, used, htext, hused, ha⟩ := hitem.exists_spelled hread hgap
            obtain ⟨others, items, written, last, tail, hfurther, hwritten, hlast, rfl, hrest,
              rfl⟩ := ih hfold
            refine ⟨_, a :: items, _, last, tail, .cons ha hfurther,
              spelled_mark rfl hbefore (hused.append hwritten), hlast, ?_, hrest, ?_⟩
            · rw [hdrop, htext]
              simp only [List.append_assoc, List.cons_append]
            · simp only [List.reverse_cons, List.append_assoc, List.cons_append, List.nil_append]

theorem listed_of_reads (hitem : Recognizes item grammar) (hstep : Prepends step item)
    (hclose : Closing close) {opening : Char} {text rest : List Char} {found : List α}
    (h : Reads (foldContainer close step []) (opening :: text) found rest) :
    ∃ tokens used before, Listed grammar tokens found.reverse ∧ Spelled tokens used ∧
      IsBlank before ∧ text = used ++ (before ++ close :: rest) := by
  unfold foldContainer at h
  rw [reads_advance_bind_iff, reads_get_bind_iff, reads_bind_iff] at h
  obtain ⟨items, middle, hfold, hend⟩ := h
  rw [reads_advance_bind_iff] at hend
  obtain ⟨rfl, rfl⟩ := reads_pure_iff.1 hend
  rw [List.drop_one, List.tail_cons, foldItems, reads_bind_iff] at hfold
  obtain ⟨answer, later, hmore, hnext⟩ := hfold
  obtain ⟨before, left, rfl, hbefore, _, hhead⟩ := exists_blank_append text
  cases left with
  | nil =>
      rw [List.append_nil] at hmore
      exact absurd hmore (not_reads_more_blank hbefore)
  | cons c behind =>
      by_cases hc : c = close
      · subst hc
        obtain ⟨rfl, rfl⟩ := (reads_more_close_iff hclose hbefore).1 hmore
        obtain ⟨rfl, rfl⟩ := reads_pure_iff.1 hnext
        exact ⟨[], [], before, .nil, rfl, hbefore, rfl⟩
      · obtain ⟨rfl, rfl⟩ := (reads_more_first_iff hbefore (hhead c rfl) hc).1 hmore
        rw [if_pos rfl, reads_bind_iff] at hnext
        obtain ⟨extended, after, hextended, hfold⟩ := hnext
        obtain ⟨a, hread, rfl⟩ := (hstep [] (c :: behind) extended after).1 hextended
        obtain ⟨tokens, used, htext, hused, ha⟩ := hitem.exists_spelled hread hbefore
        obtain ⟨others, found, written, last, tail, hfurther, hwritten, hlast, rfl, rfl, rfl⟩ :=
          further_of_reads hitem hstep hclose hfold
        refine ⟨_, _, last, ?_, hused.append hwritten, hlast, ?_⟩
        · simpa using Listed.cons ha hfurther
        · rw [htext]
          simp only [List.append_assoc, List.drop_one, List.tail_cons]

end Items

/-! ## Items one after the other -/

section Series

variable {β ε : Type} {grammar : List Token → α → Prop} {close : Char}

/-- Items up to a closing bracket, each where a reader stands once it knows that one follows. -/
inductive Series (σ : Type) (close : Char) (grammar : List Token → α → Prop) :
    Bool → List Char → List α → List Char → Prop
  | done {first : Bool} {before behind : List Char} (hbefore : IsBlank before) :
      Series σ close grammar first (before ++ close :: behind) [] (close :: behind)
  | item {first : Bool} {text used middle rest : List Char} {tokens : List Token} {a : α}
      {items : List α} (hmore : Reads (more close first : Reader σ Bool) text true (used ++ middle))
      (ha : grammar tokens a) (hused : Spelled tokens used) (hmiddle : Delimits middle)
      (hrest : Series σ close grammar false middle items rest) :
      Series σ close grammar first text (a :: items) rest

section Listed

variable (hjoined : ∀ tokens a, grammar tokens a → Joined tokens) (hclose : Closing close)

include hjoined in
theorem Further.length_le {tokens : List Token} {items : List α}
    (h : Further grammar tokens items) : items.length ≤ tokens.length := by
  induction h with
  | nil => exact Nat.le_refl 0
  | cons ha _ ih =>
      have hne := List.length_pos_of_ne_nil (hjoined _ _ ha).ne_nil
      simp only [List.length_cons, List.length_append]
      omega

include hjoined in
theorem Listed.length_le {tokens : List Token} {items : List α}
    (h : Listed grammar tokens items) : items.length ≤ tokens.length := by
  cases h with
  | nil => exact Nat.le_refl 0
  | cons ha hrest =>
      have hne := List.length_pos_of_ne_nil (hjoined _ _ ha).ne_nil
      have hlater := hrest.length_le hjoined
      simp only [List.length_cons, List.length_append]
      omega

include hjoined hclose in
theorem series_of_further {tokens : List Token} {items : List α}
    (h : Further grammar tokens items) {used before : List Char} (hused : Spelled tokens used)
    (hbefore : IsBlank before) (behind : List Char) :
    Series σ close grammar false (used ++ (before ++ close :: behind)) items
      (close :: behind) := by
  induction h generalizing used with
  | nil =>
      obtain rfl : used = [] := hused
      exact .done hbefore
  | @cons tokens rest a found ha hrest ih =>
      obtain ⟨first, _, hfirst, _, hitems, rfl⟩ := hused
      obtain ⟨written, others, hwritten, hothers, rfl⟩ := hitems.split
      obtain ⟨gap, c, after, rfl, hgap, hc, hne, hspelled⟩ :=
        (hjoined tokens a ha).exists_begin hclose hwritten
      have hdelimits : Delimits (others ++ (before ++ close :: behind)) :=
        delimits_append hothers (hrest.head_not_word hjoined)
          (delimits_blank_append hbefore hclose behind)
      have hcomma : ',' ≠ close := by
        obtain rfl | rfl := hclose <;> decide
      have hmore : Reads (more close false : Reader σ Bool)
          (first ++ ',' :: (gap ++ c :: (after ++ (others ++ (before ++ close :: behind))))) true
          (c :: (after ++ (others ++ (before ++ close :: behind)))) :=
        (reads_more_comma_iff hfirst (by decide) hcomma).2
          ⟨rfl, rfl, c, _, dropWhile_blank_append hgap hc _, hne, rfl⟩
      refine .item ?_ ha hspelled hdelimits (ih hothers)
      simpa only [Token.chars, List.append_assoc, List.cons_append, List.nil_append] using hmore

include hjoined hclose in
theorem series_of_listed {tokens : List Token} {items : List α}
    (h : Listed grammar tokens items) {used before : List Char} (hused : Spelled tokens used)
    (hbefore : IsBlank before) (behind : List Char) :
    Series σ close grammar true (used ++ (before ++ close :: behind)) items
      (close :: behind) := by
  cases h with
  | nil =>
      obtain rfl : used = [] := hused
      exact .done hbefore
  | @cons tokens rest a found ha hrest =>
      obtain ⟨written, others, hwritten, hothers, rfl⟩ := hused.split
      obtain ⟨gap, c, after, rfl, hgap, hc, hne, hspelled⟩ :=
        (hjoined tokens a ha).exists_begin hclose hwritten
      have hdelimits : Delimits (others ++ (before ++ close :: behind)) :=
        delimits_append hothers (hrest.head_not_word hjoined)
          (delimits_blank_append hbefore hclose behind)
      have hmore : Reads (more close true : Reader σ Bool)
          (gap ++ c :: (after ++ (others ++ (before ++ close :: behind)))) true
          (c :: (after ++ (others ++ (before ++ close :: behind)))) :=
        (reads_more_first_iff hgap hc hne).2 ⟨rfl, rfl⟩
      refine .item ?_ ha hspelled hdelimits (series_of_further hjoined hclose hrest hothers
        hbefore behind)
      simpa only [List.append_assoc, List.cons_append] using hmore

end Listed

theorem Listed.imp {item other : List Token → α → Prop} {tokens : List Token}
    {found : List α} (h : Listed item tokens found)
    (himp : ∀ inner a, inner.length ≤ tokens.length → item inner a → other inner a) :
    Listed other tokens found := by
  have hfurther : ∀ {behind : List Token} {items : List α}, Further item behind items →
      behind.length ≤ tokens.length → Further other behind items := by
    intro behind items hitems
    induction hitems with
    | nil => exact fun _ => .nil
    | cons ha _ ih =>
        intro hlength
        simp only [List.length_cons, List.length_append] at hlength
        exact .cons (himp _ _ (by omega) ha) (ih (by omega))
  cases h with
  | nil => exact .nil
  | cons ha hrest =>
      simp only [List.length_append] at himp hfurther
      exact .cons (himp _ _ (by omega) ha) (hfurther hrest (by omega))

/-- Items that are decoded one by one are items of a grammar by decoded values. -/
theorem Listed.mapM {item : List Token → α → Prop} {decode : α → Except ε β}
    {tokens : List Token} {found : List α} (h : Listed item tokens found) {decoded : List β}
    (hdecoded : found.mapM decode = .ok decoded) :
    Listed (fun inner b => ∃ a, item inner a ∧ decode a = .ok b) tokens decoded := by
  have hstep : ∀ {a : α} {rest : List α} {decoded : List β},
      (a :: rest).mapM decode = .ok decoded →
        ∃ b others, decode a = .ok b ∧ rest.mapM decode = .ok others ∧ decoded = b :: others := by
    intro a rest decoded hdecoded
    rw [List.mapM_cons] at hdecoded
    obtain ⟨b, hb, hrest⟩ := exists_ok_of_bind hdecoded
    obtain ⟨others, hothers, heq⟩ := exists_ok_of_bind hrest
    exact ⟨b, others, hb, hothers, (Except.ok.inj heq).symm⟩
  have hfurther : ∀ {behind : List Token} {rest : List α}, Further item behind rest →
      ∀ {decoded : List β}, rest.mapM decode = .ok decoded →
        Further (fun inner b => ∃ a, item inner a ∧ decode a = .ok b) behind decoded := by
    intro behind rest hrest
    induction hrest with
    | nil =>
        intro decoded hdecoded
        obtain rfl := Except.ok.inj hdecoded
        exact .nil
    | cons ha _ ih =>
        intro decoded hdecoded
        obtain ⟨b, others, hb, hothers, rfl⟩ := hstep hdecoded
        exact .cons ⟨_, ha, hb⟩ (ih hothers)
  cases h with
  | nil =>
      obtain rfl := Except.ok.inj hdecoded
      exact .nil
  | cons ha hrest =>
      obtain ⟨b, others, hb, hothers, rfl⟩ := hstep hdecoded
      exact .cons ⟨_, ha, hb⟩ (hfurther hrest hothers)

def Advances (step : β → Reader σ β) (grammar : List Token → α → Prop)
    (next : β → α → Except ε β) : Prop :=
  ∀ state a state' tokens used rest, next state a = .ok state' → grammar tokens a →
    Spelled tokens used → Delimits rest → Reads (step state) (used ++ rest) state' rest

theorem Series.reads_foldItems {step : β → Reader σ β} {next : β → α → Except ε β}
    (hstep : Advances step grammar next) (hclose : Closing close) {first : Bool}
    {text rest : List Char} {items : List α} (h : Series σ close grammar first text items rest)
    {start final : β} (hfold : items.foldlM next start = .ok final) {fuel : Nat}
    (hfuel : items.length < fuel) :
    Reads (foldItems close step fuel first start) text final rest := by
  obtain ⟨fuel, rfl⟩ := Nat.exists_eq_succ_of_ne_zero (Nat.ne_zero_of_lt hfuel)
  induction h generalizing start fuel with
  | @done first before behind hbefore =>
      have hmore := (@reads_more_close_iff σ _ first _ _ behind _ hclose hbefore).2 ⟨rfl, rfl⟩
      rw [foldItems, reads_bind_iff]
      exact ⟨false, close :: behind, hmore, reads_pure_iff.2 ⟨(Except.ok.inj hfold).symm, rfl⟩⟩
  | @item first text used middle rest tokens a items hmore ha hused hmiddle _ ih =>
      rw [List.foldlM_cons] at hfold
      obtain ⟨state, hnext, hlater⟩ := exists_ok_of_bind hfold
      simp only [List.length_cons] at hfuel
      obtain ⟨fuel, rfl⟩ := Nat.exists_eq_succ_of_ne_zero (n := fuel) (by omega)
      have hread := hstep start a state tokens used middle hnext ha hused hmiddle
      rw [foldItems, reads_bind_iff]
      refine ⟨true, used ++ middle, hmore, ?_⟩
      rw [if_pos rfl, reads_bind_iff]
      exact ⟨state, middle, hread, ih hlater fuel (by omega)⟩

theorem reads_foldContainer (hjoined : ∀ tokens a, grammar tokens a → Joined tokens)
    {step : β → Reader σ β} {next : β → α → Except ε β} (hstep : Advances step grammar next)
    (hclose : Closing close) {tokens : List Token} {items : List α}
    (h : Listed grammar tokens items) {start final : β}
    (hfold : items.foldlM next start = .ok final) {used before : List Char}
    (hused : Spelled tokens used) (hbefore : IsBlank before) (opening : Char)
    (rest : List Char) :
    Reads (foldContainer close step start) (opening :: (used ++ (before ++ close :: rest)))
      final rest := by
  have hitems := h.length_le hjoined
  have hlength := length_le_of_spelled hused
  have hseries : Series σ close grammar true (used ++ (before ++ close :: rest)) items
      (close :: rest) := series_of_listed hjoined hclose h hused hbefore rest
  unfold foldContainer
  rw [reads_advance_bind_iff, reads_get_bind_iff, reads_bind_iff, List.drop_one, List.tail_cons]
  refine ⟨final, close :: rest, hseries.reads_foldItems hstep hclose hfold ?_,
    reads_advance_bind_iff.2 (reads_pure_iff.2 ⟨rfl, rfl⟩)⟩
  rw [List.length_append]
  omega

theorem reads_of_listed {item : Reader σ α} {step : List α → Reader σ (List α)}
    (hitem : Accepts item grammar) (hstep : Prepends step item)
    (hclose : Closing close) {tokens : List Token} {items : List α}
    (h : Listed grammar tokens items) {used before : List Char} (hused : Spelled tokens used)
    (hbefore : IsBlank before) (opening : Char) (rest : List Char) :
    Reads (foldContainer close step []) (opening :: (used ++ (before ++ close :: rest)))
      items.reverse rest := by
  have hadvances : Advances step grammar
      fun state a => (pure (a :: state) : Except Empty (List α)) := by
    intro state a state' tokens used rest hnext ha hused hrest
    obtain rfl := Except.ok.inj hnext
    exact (hstep state _ _ _).2 ⟨a, hitem.complete tokens used a rest ha hused hrest, rfl⟩
  refine reads_foldContainer hitem.joined hadvances hclose h ?_ hused hbefore opening rest
  rw [List.foldlM_pure, List.foldl_flip_cons_eq_append', List.append_nil]
  rfl

end Series

end Json

end ScopedCheck

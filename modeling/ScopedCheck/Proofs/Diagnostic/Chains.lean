import Mathlib.Data.List.Chain
import ScopedCheck.Diagnostic.Message
import ScopedCheck.Proofs.Text.Splitting

/-!
# What a chain displays

A chain displays its links from the top, each before its explanations.  A link
without text leaves no trace: its explanations stand where it does.  The depths
say which entry explains which, so that a chain whose links all have text can be
told from its entries.
-/

namespace ScopedCheck

namespace MessageChain

/-! ## Links from the top -/

/-- A link of a chain with the texts of the links above it, from the top down. -/
structure Visit where
  above : List String
  text : String

def Visit.hasText (visit : Visit) : Bool :=
  !visit.text.isEmpty

def Visit.depth (visit : Visit) : Nat :=
  visit.above.countP (!·.isEmpty)

mutual

/-- The links of a chain, each before its explanations. -/
def visitsBelow (above : List String) : MessageChain → List Visit
  | link text next => ⟨above, text⟩ :: visitsOfList (above ++ [text]) next

def visitsOfList (above : List String) : List MessageChain → List Visit
  | [] => []
  | chain :: rest => visitsBelow above chain ++ visitsOfList above rest

end

def visits (chain : MessageChain) : List Visit :=
  visitsBelow [] chain

/-- The entries that links make: one for each link with text. -/
def shown (visits : List Visit) : List (Nat × String) :=
  (visits.filter (·.hasText)).map fun visit => (visit.depth, visit.text)

theorem shown_append (a b : List Visit) : shown (a ++ b) = shown a ++ shown b := by
  simp [shown]

mutual

theorem entriesAt_eq_shown : ∀ (above : List String) (chain : MessageChain),
    entriesAt (above.countP (!·.isEmpty)) chain = shown (visitsBelow above chain)
  | above, .link text next => by
      have hnext := entriesOfList_eq_shown (above ++ [text]) next
      rw [List.countP_append] at hnext
      by_cases htext : text.isEmpty
      · simp [entriesAt, visitsBelow, shown, Visit.hasText, htext] at hnext ⊢
        exact hnext
      · simp [entriesAt, visitsBelow, shown, Visit.hasText, Visit.depth, htext] at hnext ⊢
        exact hnext

theorem entriesOfList_eq_shown : ∀ (above : List String) (chains : List MessageChain),
    entriesOfList (above.countP (!·.isEmpty)) chains = shown (visitsOfList above chains)
  | above, [] => rfl
  | above, chain :: rest => by
      rw [entriesOfList, visitsOfList, shown_append, entriesAt_eq_shown above chain,
        entriesOfList_eq_shown above rest]

end

/-! ## Depths -/

/-- Entries that begin at a depth, stay there or below, and go down one level at a time. -/
structure Descends (depth : Nat) (entries : List (Nat × String)) : Prop where
  head_eq : ∀ entry ∈ entries.head?, entry.1 = depth
  le : ∀ entry ∈ entries, depth ≤ entry.1
  step : entries.IsChain fun a b => b.1 ≤ a.1 + 1

theorem Descends.nil (depth : Nat) : Descends depth [] where
  head_eq := by simp
  le := by simp
  step := .nil

theorem Descends.append {depth : Nat} {a b : List (Nat × String)} (ha : Descends depth a)
    (hb : Descends depth b) : Descends depth (a ++ b) where
  head_eq := by
    intro entry hentry
    cases a with
    | nil => exact hb.head_eq entry hentry
    | cons first rest => exact ha.head_eq entry hentry
  le := by
    intro entry hentry
    rcases List.mem_append.1 hentry with hmem | hmem
    · exact ha.le entry hmem
    · exact hb.le entry hmem
  step := by
    apply ha.step.append hb.step
    intro last hlast first hfirst
    have hle := ha.le last (List.mem_of_getLast? hlast)
    have heq := hb.head_eq first hfirst
    omega

theorem Descends.cons {depth : Nat} {entries : List (Nat × String)} (text : String)
    (h : Descends (depth + 1) entries) : Descends depth ((depth, text) :: entries) where
  head_eq := by simp
  le := by
    intro entry hentry
    rcases List.mem_cons.1 hentry with rfl | hmem
    · exact Nat.le_refl depth
    · exact Nat.le_of_succ_le (h.le entry hmem)
  step := by
    apply List.isChain_cons.2
    refine ⟨?_, h.step⟩
    intro first hfirst
    exact Nat.le_of_eq (h.head_eq first hfirst)

mutual

theorem descends_entriesAt : ∀ (depth : Nat) (chain : MessageChain),
    Descends depth (entriesAt depth chain)
  | depth, .link text next => by
      rw [entriesAt]
      split
      · exact descends_entriesOfList depth next
      · exact (descends_entriesOfList (depth + 1) next).cons text

theorem descends_entriesOfList : ∀ (depth : Nat) (chains : List MessageChain),
    Descends depth (entriesOfList depth chains)
  | depth, [] => .nil depth
  | depth, chain :: rest => by
      rw [entriesOfList]
      exact (descends_entriesAt depth chain).append (descends_entriesOfList depth rest)

end

/-! ## Links without text -/

/-- Whether chains become others by one link without text giving way to its explanations. -/
inductive Splices : List MessageChain → List MessageChain → Prop
  | here (before next after : List MessageChain) :
      Splices (before ++ link "" next :: after) (before ++ next ++ after)
  | inside (before : List MessageChain) (text : String) {next spliced : List MessageChain}
      (hnext : Splices next spliced) (after : List MessageChain) :
      Splices (before ++ link text next :: after) (before ++ link text spliced :: after)

theorem entriesOfList_append (depth : Nat) (a b : List MessageChain) :
    entriesOfList depth (a ++ b) = entriesOfList depth a ++ entriesOfList depth b := by
  rw [entriesOfList_eq_flatMap, entriesOfList_eq_flatMap, entriesOfList_eq_flatMap,
    List.flatMap_append]

theorem Splices.entriesOfList {chains spliced : List MessageChain} (h : Splices chains spliced)
    (depth : Nat) : entriesOfList depth chains = entriesOfList depth spliced := by
  induction h generalizing depth with
  | here before next after =>
      have hempty : ("" : String).isEmpty = true := rfl
      rw [entriesOfList_append, entriesOfList_append, entriesOfList_append,
        MessageChain.entriesOfList, entriesAt, if_pos hempty, List.append_assoc]
  | inside before text hnext after ih =>
      rw [entriesOfList_append, entriesOfList_append, MessageChain.entriesOfList,
        MessageChain.entriesOfList, entriesAt, entriesAt, ih depth, ih (depth + 1)]

theorem Splices.entriesAt {next spliced : List MessageChain} (h : Splices next spliced)
    (text : String) (depth : Nat) :
    (link text next).entriesAt depth = (link text spliced).entriesAt depth := by
  rw [MessageChain.entriesAt, MessageChain.entriesAt, h.entriesOfList depth,
    h.entriesOfList (depth + 1)]

/-! ## From entries to chains -/

theorem takeWhile_deeper {depth : Nat} {below rest : List (Nat × String)}
    (hbelow : Descends (depth + 1) below) (hrest : Descends depth rest) :
    (below ++ rest).takeWhile (depth < ·.1) = below := by
  have hdeeper : ∀ entry ∈ below, decide (depth < entry.1) = true := by
    intro entry hmem
    have hle := hbelow.le entry hmem
    exact decide_eq_true hle
  rw [List.takeWhile_append_of_pos hdeeper]
  cases rest with
  | nil => simp
  | cons first more =>
      have hfirst : first.1 = depth := hrest.head_eq first rfl
      simp [hfirst]

/-- Entries of explanations and of what follows them are told apart by their depths. -/
theorem append_inj_of_descends {depth : Nat} {below below' rest rest' : List (Nat × String)}
    (hbelow : Descends (depth + 1) below) (hbelow' : Descends (depth + 1) below')
    (hrest : Descends depth rest) (hrest' : Descends depth rest')
    (h : below ++ rest = below' ++ rest') : below = below' ∧ rest = rest' := by
  have hsame : below = below' := by
    rw [← takeWhile_deeper hbelow hrest, h, takeWhile_deeper hbelow' hrest']
  subst hsame
  exact ⟨rfl, List.append_cancel_left h⟩

theorem entriesOfList_cons_of_text {text : String} (h : text.isEmpty = false) (depth : Nat)
    (next rest : List MessageChain) :
    entriesOfList depth (link text next :: rest) =
      (depth, text) :: (entriesOfList (depth + 1) next ++ entriesOfList depth rest) := by
  rw [entriesOfList, entriesAt, h]
  rfl

theorem haveText_cons {above : List String} {text : String} {next rest : List MessageChain}
    (h : ∀ visit ∈ visitsOfList above (link text next :: rest), visit.hasText = true) :
    text.isEmpty = false ∧ (∀ visit ∈ visitsOfList (above ++ [text]) next, visit.hasText = true) ∧
      ∀ visit ∈ visitsOfList above rest, visit.hasText = true := by
  rw [visitsOfList, visitsBelow] at h
  obtain ⟨htop, hrest⟩ := List.forall_mem_append.1 h
  obtain ⟨htext, hnext⟩ := List.forall_mem_cons.1 htop
  refine ⟨?_, hnext, hrest⟩
  simpa [Visit.hasText] using htext

theorem eq_of_entriesOfList_eq (depth : Nat) (above above' : List String) :
    ∀ chains others : List MessageChain,
      (∀ visit ∈ visitsOfList above chains, visit.hasText = true) →
      (∀ visit ∈ visitsOfList above' others, visit.hasText = true) →
      entriesOfList depth chains = entriesOfList depth others → chains = others
  | [], [], _, _, _ => rfl
  | [], .link text next :: rest, _, hothers, h => by
      rw [entriesOfList_cons_of_text (haveText_cons hothers).1] at h
      cases h
  | .link text next :: rest, [], hchains, _, h => by
      rw [entriesOfList_cons_of_text (haveText_cons hchains).1] at h
      cases h
  | .link text next :: rest, .link text' next' :: rest', hchains, hothers, h => by
      obtain ⟨htext, hnext, hrest⟩ := haveText_cons hchains
      obtain ⟨htext', hnext', hrest'⟩ := haveText_cons hothers
      rw [entriesOfList_cons_of_text htext, entriesOfList_cons_of_text htext'] at h
      -- What is deeper than the first entry explains it; the next entry at its depth is beside it.
      obtain ⟨hentry, htail⟩ := List.cons.inj h
      obtain ⟨hbelow, hafter⟩ := append_inj_of_descends
        (descends_entriesOfList (depth + 1) next) (descends_entriesOfList (depth + 1) next')
        (descends_entriesOfList depth rest) (descends_entriesOfList depth rest') htail
      rw [(Prod.mk.inj hentry).2,
        eq_of_entriesOfList_eq (depth + 1) _ _ next next' hnext hnext' hbelow,
        eq_of_entriesOfList_eq depth _ _ rest rest' hrest hrest' hafter]

end MessageChain

namespace Message

open MessageChain (Splices Visit)

theorem entries_chain (top : MessageChain) :
    (chain top).entries = MessageChain.shown top.visits :=
  MessageChain.entriesAt_eq_shown [] top

/-! ## Lines -/

theorem not_mem_of_mem_displayLines (message : Message) :
    ∀ line ∈ message.displayLines, '\n' ∉ line := by
  intro line hmem
  obtain ⟨entry, _, hline⟩ := List.mem_flatMap.1 hmem
  obtain ⟨plain, hplain, rfl⟩ := List.mem_map.1 hline
  have hbreak := Text.not_mem_of_mem_lines _ plain hplain
  simp [hbreak]

theorem isEmpty_displayLines_chain (top : MessageChain) :
    (chain top).displayLines.isEmpty = !top.visits.any (·.hasText) := by
  rw [displayLines, entries_chain]
  cases hvisits : top.visits.filter (·.hasText) with
  | nil =>
      have hnone : top.visits.any (·.hasText) = false := by
        rw [List.any_eq_false]
        exact List.filter_eq_nil_iff.1 hvisits
      simp [MessageChain.shown, hvisits, hnone]
  | cons visit rest =>
      have hmem : visit ∈ top.visits.filter (·.hasText) := hvisits ▸ List.mem_cons_self
      obtain ⟨hvisit, htext⟩ := List.mem_filter.1 hmem
      have hsome : top.visits.any (·.hasText) = true := List.any_eq_true.2 ⟨visit, hvisit, htext⟩
      have hline : Text.lines visit.text.toList ≠ [] := by
        intro hnil
        have hempty := Text.lines_eq_nil_iff.1 hnil
        simp [Visit.hasText, String.toList_eq_nil_iff] at htext hempty
        exact htext hempty
      simp [MessageChain.shown, hvisits, hsome, indentedLines, hline]

theorem splitAt_flatten_chain (top : MessageChain) :
    Text.splitAt '\n' (chain top).flatten.toList =
      if top.visits.any (·.hasText) then (chain top).displayLines else [placeholder.toList] := by
  have hempty := isEmpty_displayLines_chain top
  unfold flatten
  cases hlines : (chain top).displayLines with
  | nil =>
      rw [hlines, List.isEmpty_nil, eq_comm, Bool.not_eq_true'] at hempty
      rw [hempty, if_neg (by decide)]
      exact Text.splitAt_of_not_mem (by decide)
  | cons first rest =>
      rw [hlines, List.isEmpty_cons, eq_comm, Bool.not_eq_false'] at hempty
      rw [hempty, if_pos rfl, String.toList_ofList]
      apply Text.splitAt_joinWith (by simp)
      rw [← hlines]
      exact not_mem_of_mem_displayLines (chain top)

/-! ## Display -/

/--
The entries of a chain are the texts of its links from the top, each at the depth that the texts
above it make.

Depths begin at zero and go down one at a time.  The flattened chain has the lines of the entries,
indented by their depths.  A link below the top that has no text may give way to its explanations
and nothing changes, and a chain whose links all have text is told by its entries.
-/
theorem chain_display_faithful :
    (∀ top : MessageChain,
      (chain top).entries =
          (top.visits.filter (·.hasText)).map (fun visit => (visit.depth, visit.text)) ∧
        (∀ entry ∈ (chain top).entries.head?, entry.1 = 0) ∧
        ((chain top).entries.IsChain fun a b => b.1 ≤ a.1 + 1) ∧
        Text.splitAt '\n' (chain top).flatten.toList =
          if top.visits.any (·.hasText) then
            (chain top).entries.flatMap fun entry =>
              (Text.lines entry.2.toList).map (List.replicate (2 * entry.1) ' ' ++ ·)
          else [placeholder.toList]) ∧
      (∀ text next spliced, Splices next spliced →
        (chain (.link text next)).entries = (chain (.link text spliced)).entries ∧
          (chain (.link text next)).text = (chain (.link text spliced)).text ∧
          (chain (.link text next)).flatten = (chain (.link text spliced)).flatten) ∧
      ∀ top other : MessageChain, (∀ visit ∈ top.visits, visit.hasText = true) →
        (∀ visit ∈ other.visits, visit.hasText = true) →
        (chain top).entries = (chain other).entries → top = other := by
  refine ⟨?_, ?_, ?_⟩
  · intro top
    have hdescends := MessageChain.descends_entriesAt 0 top
    exact ⟨entries_chain top, hdescends.head_eq, hdescends.step, splitAt_flatten_chain top⟩
  · intro text next spliced h
    have hentries := h.entriesAt text 0
    refine ⟨hentries, ?_, ?_⟩
    · simp only [Message.text, hentries]
    · simp only [flatten, displayLines, entries, hentries]
  · intro top other htop hother h
    have hone : ∀ chain : MessageChain, MessageChain.visitsOfList [] [chain] = chain.visits := by
      intro chain
      simp [MessageChain.visitsOfList, MessageChain.visits]
    have hsame : MessageChain.entriesOfList 0 [top] = MessageChain.entriesOfList 0 [other] := by
      simpa [MessageChain.entriesOfList, entries] using h
    rw [← hone top] at htop
    rw [← hone other] at hother
    exact (List.cons.inj
      (MessageChain.eq_of_entriesOfList_eq 0 [] [] [top] [other] htop hother hsame)).1

/-- A chain with a link without text at its top, and one further down that gives way. -/
theorem chain_display_faithful_spliced :
    let next : List MessageChain :=
      [.link "a\r\nb" [.link "" [.link "c" []], .link "d" []], .link "e" []]
    let spliced : List MessageChain :=
      [.link "a\r\nb" [.link "c" [], .link "d" []], .link "e" []]
    Splices next spliced ∧ (chain (.link "" next)).flatten = (chain (.link "" spliced)).flatten ∧
      (chain (.link "" next)).entries = [(0, "a\r\nb"), (1, "c"), (1, "d"), (0, "e")] ∧
      (∀ visit ∈ (MessageChain.link "t" spliced).visits, visit.hasText = true) ∧
      ∀ other : MessageChain, (∀ visit ∈ other.visits, visit.hasText = true) →
        (chain other).entries =
          [(0, "t"), (1, "a\r\nb"), (2, "c"), (2, "d"), (1, "e")] →
        other = .link "t" spliced := by
  intro next spliced
  have hsplices : Splices next spliced := .inside [] _ (.here [] [.link "c" []] [.link "d" []]) _
  have hfull : ∀ visit ∈ (MessageChain.link "t" spliced).visits, visit.hasText = true := by decide
  obtain ⟨hdisplay, hsplice, hinjective⟩ := chain_display_faithful
  refine ⟨hsplices, (hsplice "" next spliced hsplices).2.2, ?_, hfull, ?_⟩
  · exact (hdisplay (.link "" next)).1.trans (by decide)
  · intro other hother h
    exact hinjective other _ hother hfull (h.trans (by decide))

end Message

end ScopedCheck

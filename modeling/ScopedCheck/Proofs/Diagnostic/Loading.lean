import ScopedCheck.Diagnostic.Reading
import ScopedCheck.Json.Equality
import ScopedCheck.Proofs.Diagnostic.RawSet
import ScopedCheck.Proofs.Json.Printed
import ScopedCheck.Proofs.Json.Skipping

/-!
# What is loaded of raw diagnostics

Diagnostics are decoded while their text is read.  What comes out is what the
decoders make of the value of the text.  A file that is named again loses the
entries it had, so the set is the one that extensions build only as long as there
is nothing to lose.
-/

namespace ScopedCheck

open Json (Reads Spelled Delimits IsBlank Denotes Member Series Accepts Advances Token Value)

namespace RawEntry

/-! ## Fields -/

theorem reads_orMismatch {α : Type} {outcome : Except ShapeError α} {found : α}
    (h : outcome = .ok found) (text : List Char) : Reads (orMismatch outcome) text found text := by
  rw [h]
  exact Json.reads_pure_iff.2 ⟨rfl, rfl⟩

/-- A container is no value of a field, messages apart. -/
theorem exists_token_of_set {draft next : Draft} {field : Field} {value : Value}
    (h : draft.set field value = .ok next) (hfield : field ≠ .messageText) {depth : Nat}
    {tokens : List Token} (hvalue : Denotes depth tokens value) :
    ∃ token, tokens = [token] ∧ Json.Scalar token value := by
  cases depth with
  | zero => exact hvalue
  | succ depth =>
      cases hvalue with
      | scalar hscalar => exact ⟨_, rfl, hscalar⟩
      | array _ => cases field <;> first | cases h | exact absurd rfl hfield
      | object _ => cases field <;> first | cases h | exact absurd rfl hfield

theorem reads_shallow {token : Token} {value : Value} (h : Json.Scalar token value)
    {used rest : List Char} (hused : Spelled [token] used) (hrest : Delimits rest) :
    Reads (Json.shallow : Json.Reader ShapeError Value) (used ++ rest) value rest := by
  obtain ⟨before, _, hbefore, _, rfl, rfl⟩ := hused
  rw [List.append_nil, List.append_assoc]
  exact Json.reads_scalarOr_scalar h hbefore hrest

theorem reads_readField {draft next : Draft} {field : Field} {value : Value}
    (h : draft.set field value = .ok next) {tokens : List Token}
    (hvalue : Denotes messageDepth tokens value) {used rest : List Char}
    (hused : Spelled tokens used) (hrest : Delimits rest) :
    Reads (readField draft field) (used ++ rest) next rest := by
  have hset := reads_orMismatch h rest
  have hshallow : field ≠ .messageText →
      Reads (Json.shallow : Json.Reader ShapeError Value) (used ++ rest) value rest := by
    intro hfield
    obtain ⟨token, rfl, hscalar⟩ := exists_token_of_set h hfield hvalue
    exact reads_shallow hscalar hused hrest
  cases field with
  | messageText =>
      have hread := (@Json.recognizes_value ShapeError messageDepth).complete tokens used value rest
        hvalue hused hrest
      exact Json.reads_bind_iff.2 ⟨value, rest, hread, hset⟩
  | file => exact Json.reads_bind_iff.2 ⟨value, rest, hshallow (by decide), hset⟩
  | start => exact Json.reads_bind_iff.2 ⟨value, rest, hshallow (by decide), hset⟩
  | length => exact Json.reads_bind_iff.2 ⟨value, rest, hshallow (by decide), hset⟩
  | code => exact Json.reads_bind_iff.2 ⟨value, rest, hshallow (by decide), hset⟩

/-! ## Entries as objects -/

theorem advances_readMember : Advances readMember (Member (Denotes messageDepth))
    fun draft found => draft.ofMembers [found] := by
  intro draft found next tokens used rest h hmember hused hrest
  obtain ⟨name, value⟩ := found
  obtain ⟨others, last, middle, hvalue, _, hlast, hname, hcolon⟩ := hmember.exists_reads hused rest
  unfold readMember
  refine Json.reads_bind_iff.2 ⟨name, middle, hname, ?_⟩
  dsimp only at h hvalue
  unfold Draft.ofMembers at h
  cases hfield : Field.ofName? name with
  | none =>
      rw [hfield] at h
      obtain rfl : draft = next := by simpa [Draft.ofMembers] using h
      refine Json.reads_bind_iff.2 ⟨(), _, hcolon, Json.reads_bind_iff.2 ⟨(), rest, ?_, ?_⟩⟩
      · exact Json.reads_skip hvalue hlast hrest
      · exact Json.reads_pure_iff.2 ⟨rfl, rfl⟩
  | some field =>
      rw [hfield] at h
      dsimp only at h ⊢
      cases hhas : draft.has field with
      | true =>
          rw [hhas] at h
          cases h
      | false =>
          rw [hhas, if_neg Bool.false_ne_true] at h
          cases hset : draft.set field value with
          | error cause =>
              rw [hset] at h
              cases h
          | ok changed =>
              rw [hset] at h
              obtain rfl : changed = next := by simpa [Draft.ofMembers] using h
              rw [if_neg Bool.false_ne_true]
              exact Json.reads_bind_iff.2 ⟨(), _, hcolon, reads_readField hset hvalue hlast hrest⟩

theorem Draft.foldlM_ofMembers (draft : Draft) (members : List (String × Value)) :
    members.foldlM (fun draft member => ofMembers draft [member]) draft =
      ofMembers draft members := by
  induction members generalizing draft with
  | nil => rfl
  | cons member members ih =>
      obtain ⟨name, value⟩ := member
      rw [List.foldlM_cons]
      conv_lhs => unfold ofMembers
      conv_rhs => unfold ofMembers
      cases Field.ofName? name with
      | none => exact ih draft
      | some field =>
          dsimp only
          split
          · rfl
          · cases draft.set field value with
            | error cause => rfl
            | ok changed => exact ih changed

/-! ## Entries as arrays -/

theorem reads_readItems {fields : List Field} {draft final : Draft} {items : List Value}
    (h : draft.ofItems fields items = .ok (final, [])) {first : Bool} {text rest : List Char}
    (hitems : Series ShapeError ']' (Denotes messageDepth) first text items (']' :: rest)) :
    ∃ before, IsBlank before ∧
      Reads (readItems draft first fields) text final (before ++ ']' :: rest) := by
  induction fields generalizing draft first text items with
  | nil =>
      obtain ⟨rfl, rfl⟩ := Prod.mk.inj (Except.ok.inj h)
      cases hitems with
      | done hbefore => exact ⟨_, hbefore, Json.reads_pure_iff.2 ⟨rfl, rfl⟩⟩
  | cons field fields ih =>
      cases hitems with
      | done hbefore =>
          obtain ⟨_, hends, heq⟩ := exists_ok_of_map h
          obtain rfl := (Prod.mk.inj heq).1
          have hmore := (@Json.reads_more_close_iff ShapeError _ first false _ rest _ (.inl rfl)
            hbefore).2 ⟨rfl, rfl⟩
          refine ⟨[], Json.isBlank_nil, ?_⟩
          rw [readItems]
          exact Json.reads_bind_iff.2 ⟨false, _, hmore, reads_orMismatch hends _⟩
      | @item _ _ used middle _ tokens value items hmore hvalue hused hmiddle hlater =>
          unfold Draft.ofItems at h
          cases hset : draft.set field value with
          | error cause =>
              rw [hset] at h
              cases h
          | ok changed =>
              rw [hset] at h
              obtain ⟨before, hbefore, hread⟩ := ih h hlater
              refine ⟨before, hbefore, ?_⟩
              rw [readItems]
              refine Json.reads_bind_iff.2 ⟨true, _, hmore, ?_⟩
              rw [if_pos rfl]
              exact Json.reads_bind_iff.2
                ⟨changed, middle, reads_readField hset hvalue hused hmiddle, hread⟩

theorem reads_read_array {tokens : List Token} {items : List Value} {entry : RawEntry}
    (hitems : Json.Listed (Denotes messageDepth) tokens items)
    (h : ofJson (.array items) = .ok entry) {used : List Char}
    (hused : Spelled (.mark '[' :: (tokens ++ [.mark ']'])) used) (rest : List Char) :
    Reads read (used ++ rest) entry rest := by
  obtain ⟨before, used, gap, hbefore, hused, hgap, htext⟩ :=
    Json.exists_of_spelled_brackets hused
  obtain ⟨⟨draft, left⟩, hdraft, hfinish⟩ := exists_ok_of_bind h
  obtain ⟨found, hfound, hleft⟩ := exists_ok_of_bind hfinish
  obtain ⟨rfl, rfl⟩ : left = [] ∧ found = entry := by
    cases left with
    | nil => exact ⟨rfl, Except.ok.inj hleft⟩
    | cons value left => cases hleft
  have hseries : Series ShapeError ']' (Denotes messageDepth) true
      (used ++ (gap ++ ']' :: rest)) items (']' :: rest) :=
    Json.series_of_listed (fun _ _ => Denotes.joined) (.inl rfl) hitems hused hgap rest
  obtain ⟨last, hlast, hread⟩ := reads_readItems hdraft hseries
  unfold read
  rw [htext, Json.reads_next?_bind_append_iff hbefore (by decide)]
  refine Json.reads_advance_bind_iff.2 (Json.reads_bind_iff.2 ⟨draft, _, hread, ?_⟩)
  refine Json.reads_bind_iff.2 ⟨found, _, reads_orMismatch hfound _, ?_⟩
  rw [Json.reads_next?_bind_append_iff hlast (by decide),
    if_neg (by simp)]
  exact Json.reads_advance_bind_iff.2 (Json.reads_pure_iff.2 ⟨rfl, rfl⟩)

theorem reads_read_object {tokens : List Token} {members : List (String × Value)}
    {entry : RawEntry} (hmembers : Json.Listed (Member (Denotes messageDepth)) tokens members)
    (h : ofJson (.object members) = .ok entry) {used : List Char}
    (hused : Spelled (.mark '{' :: (tokens ++ [.mark '}'])) used) (rest : List Char) :
    Reads read (used ++ rest) entry rest := by
  obtain ⟨before, used, gap, hbefore, hused, hgap, htext⟩ :=
    Json.exists_of_spelled_brackets hused
  obtain ⟨draft, hdraft, hfinish⟩ := exists_ok_of_bind h
  rw [← Draft.foldlM_ofMembers] at hdraft
  have hjoined : ∀ tokens member, Member (Denotes messageDepth) tokens member →
      Json.Joined tokens := fun _ _ hmember => hmember.joined fun _ _ => Denotes.joined
  have hseries : Series ShapeError '}' (Member (Denotes messageDepth)) true
      (used ++ (gap ++ '}' :: rest)) members ('}' :: rest) :=
    Json.series_of_listed hjoined (.inr rfl) hmembers hused hgap rest
  have hfuel : members.length < (used ++ (gap ++ '}' :: rest)).length + 1 := by
    have hitems := hmembers.length_le hjoined
    have hlength := Json.length_le_of_spelled hused
    rw [List.length_append]
    omega
  have hread := hseries.reads_foldItems advances_readMember (.inr rfl) hdraft hfuel
  unfold read
  rw [htext, Json.reads_next?_bind_append_iff hbefore (by decide)]
  refine Json.reads_advance_bind_iff.2 (Json.reads_get_bind_iff.2 ?_)
  refine Json.reads_bind_iff.2 ⟨draft, _, hread, ?_⟩
  refine Json.reads_bind_iff.2 ⟨entry, _, reads_orMismatch hfinish _, ?_⟩
  exact Json.reads_advance_bind_iff.2 (Json.reads_pure_iff.2 ⟨rfl, rfl⟩)

/-! ## Lists of entries -/

theorem accepts_read : Accepts read fun tokens entry =>
    ∃ value, Denotes (messageDepth + 1) tokens value ∧ ofJson value = .ok entry where
  joined := fun _ _ h => by
    obtain ⟨_, hvalue, _⟩ := h
    exact hvalue.joined
  complete := by
    rintro tokens used entry rest ⟨value, hvalue, hentry⟩ hused hrest
    cases hvalue with
    | scalar hscalar => cases hscalar <;> cases hentry
    | array hitems => exact reads_read_array hitems hentry hused rest
    | object hmembers => exact reads_read_object hmembers hentry hused rest

theorem accepts_readList : Accepts readList fun tokens entries =>
    ∃ value, Denotes (messageDepth + 2) tokens value ∧ listOfJson value = .ok entries where
  joined := fun _ _ h => by
    obtain ⟨_, hvalue, _⟩ := h
    exact hvalue.joined
  complete := by
    rintro tokens used entries rest ⟨value, hvalue, hentries⟩ hused hrest
    cases hvalue with
    | scalar hscalar => cases hscalar <;> cases hentries
    | object _ => cases hentries
    | array hitems =>
        obtain ⟨before, used, gap, hbefore, hused, hgap, htext⟩ :=
          Json.exists_of_spelled_brackets hused
        have hread := Json.reads_of_listed accepts_read (Json.prepends_item read) (.inl rfl)
          (hitems.mapM hentries) hused hgap '[' rest
        unfold readList
        rw [htext, Json.reads_next?_bind_append_iff hbefore (by decide)]
        exact Json.reads_bind_pure_iff.2 ⟨_, hread, entries.reverse_reverse.symm⟩

end RawEntry

namespace RawSet

/-! ## Sets -/

def fileOf (member : String × Value) : Except ShapeError (Path × List RawEntry) :=
  (RawEntry.listOfJson member.2).map fun entries => (⟨member.1⟩, entries)

theorem advances_readFile : Advances readFile
    (fun tokens pair => ∃ member, Member (Denotes (RawEntry.messageDepth + 2)) tokens member ∧
      fileOf member = .ok pair)
    fun raw pair => (pure (raw.replace pair.1 pair.2) : Except Empty RawSet) := by
  rintro raw pair next tokens used rest hnext ⟨member, hmember, hpair⟩ hused hrest
  obtain rfl := Except.ok.inj hnext
  obtain ⟨entries, hentries, rfl⟩ := exists_ok_of_map hpair
  obtain ⟨others, last, middle, hvalue, _, hlast, hname, hcolon⟩ := hmember.exists_reads hused rest
  have hlist := RawEntry.accepts_readList.complete others last entries rest
    ⟨member.2, hvalue, hentries⟩ hlast hrest
  refine Json.reads_bind_iff.2 ⟨member.1, last ++ rest, ?_, ?_⟩
  · refine Json.reads_bind_iff.2 ⟨member.1, middle, hname, ?_⟩
    exact Json.reads_bind_iff.2 ⟨(), _, hcolon, Json.reads_pure_iff.2 ⟨rfl, rfl⟩⟩
  · exact Json.reads_bind_iff.2 ⟨entries, rest, hlist, Json.reads_pure_iff.2 ⟨rfl, rfl⟩⟩

theorem reads_read {tokens : List Token} {members : List (String × Value)}
    (h : Denotes (RawEntry.messageDepth + 3) tokens (.object members))
    {pairs : List (Path × List RawEntry)} (hpairs : members.mapM fileOf = .ok pairs)
    {used : List Char} (hused : Spelled tokens used) (rest : List Char) :
    Reads read (used ++ rest) (empty.replaceAll pairs) rest := by
  cases h with
  | scalar hscalar => cases hscalar
  | object hmembers =>
      obtain ⟨before, used, gap, hbefore, hused, hgap, htext⟩ :=
        Json.exists_of_spelled_brackets hused
      have hjoined : ∀ tokens pair, (∃ member,
          Member (Denotes (RawEntry.messageDepth + 2)) tokens member ∧ fileOf member = .ok pair) →
            Json.Joined tokens := by
        rintro tokens pair ⟨member, hmember, _⟩
        exact hmember.joined fun _ _ => Denotes.joined
      have hfold : pairs.foldlM (fun raw pair =>
          (pure (raw.replace pair.1 pair.2) : Except Empty RawSet)) empty =
            .ok (empty.replaceAll pairs) := List.foldlM_pure
      unfold read
      rw [htext, Json.reads_next?_bind_append_iff hbefore (by decide)]
      exact Json.reads_foldContainer hjoined advances_readFile (.inr rfl)
        (hmembers.mapM hpairs) hfold hused hgap '{' rest

/-- The members of a text replace one another's entries, in the order of the text. -/
theorem ofText_eq_replaceAll {text : String} {members : List (String × Value)}
    (hparse : Json.parse? text = some (.object members))
    {pairs : List (Path × List RawEntry)} (hpairs : members.mapM fileOf = .ok pairs) :
    ofText text = .ok (empty.replaceAll pairs) := by
  obtain ⟨tokens, hlaid, hdenotes⟩ := Json.parse?_eq_some_iff.1 hparse
  rw [← List.append_nil tokens] at hlaid
  obtain ⟨used, rest, hused, hrest, htext⟩ := hlaid.split
  have hread : (read.run (used ++ rest)) = .ok (empty.replaceAll pairs, rest) :=
    reads_read hdenotes hpairs hused rest
  have hblank : rest.all Json.isSpace = true := List.all_eq_true.2 hrest
  rw [ofText, Json.readAll, htext, hread]
  simp [bind, Except.bind, hblank, pure, Except.pure]

/--
A text is loaded as the set in which each file has the entries of its last mention.

The files are listed in the order and the spelling of their first mention.  No more entries are
there than in the text, and all of them exactly when no file is named again, under any spelling,
after it was given entries.  Then, and only then, the set is the one that extensions build.
-/
theorem ofText_keeps_last {text : String} {members : List (String × Value)}
    (hparse : Json.parse? text = some (.object members))
    {pairs : List (Path × List RawEntry)} (hpairs : members.mapM fileOf = .ok pairs) :
    ∃ raw, ofText text = .ok raw ∧
      Path.FirstMentions (pairs.map (·.1)) raw.keys ∧
      (∀ path, raw.get? path = ((pairs.filter (·.1.same path)).getLast?).map (·.2)) ∧
      raw.entryCount ≤ (pairs.flatMap (·.2)).length ∧
      (raw.entryCount = (pairs.flatMap (·.2)).length ↔ Kept pairs) ∧
      (raw = empty.extendAll pairs ↔ Kept pairs) := by
  obtain ⟨hle, hkept⟩ := entryCount_replaceAll pairs
  refine ⟨empty.replaceAll pairs, ofText_eq_replaceAll hparse hpairs, ?_,
    get?_replaceAll_empty pairs, hle, ⟨hkept, fun h => ?_⟩, replaceAll_eq_extendAll_iff pairs⟩
  · rw [keys_replaceAll]
    exact Path.firstMentions_distinct _
  · rw [replaceAll_eq_extendAll h, entryCount_extendAll_empty]

/-- A field that is ignored, an entry in either form, and a file that had no entries before. -/
theorem ofText_keeps_last_respelled :
    let members : List (String × Value) := [("/p//a.ts", .array []), ("/p/a.ts", .array
      [.array [.null, .ofNat 0, .ofNat 1, .string "e"],
        .object [("x", .array [.ofNat 1]), ("start", .ofNat 2), ("length", .ofNat 1),
          ("messageText", .string "f")]])]
    let entries : List RawEntry :=
      [⟨none, 0, 1, .plain "e", none⟩, ⟨none, 2, 1, .plain "f", none⟩]
    let pairs : List (Path × List RawEntry) := [(⟨"/p//a.ts"⟩, []), (⟨"/p/a.ts"⟩, entries)]
    Json.parse? (Value.object members).pretty = some (.object members) ∧
      members.mapM fileOf = .ok pairs ∧ Kept pairs ∧
        ofText (Value.object members).pretty = .ok (empty.extendAll pairs) ∧
          (empty.extendAll pairs).entryCount = 2 := by
  intro members entries pairs
  have hfits : (Value.object members).Fits Json.maxDepth := by
    simp [members, Value.ofNat, Value.Fits, Json.Number.Fits, Json.maxDepth, Json.maxNegated,
      Json.maxInteger]
  have hparse : Json.parse? (Value.object members).pretty = some (.object members) := by
    simpa using Json.parse?_pretty hfits Json.isBlank_nil
  have harray : RawEntry.ofJson (.array [.null, .ofNat 0, .ofNat 1, .string "e"]) =
      .ok ⟨none, 0, 1, .plain "e", none⟩ := rfl
  have hobject : RawEntry.ofJson (.object [("x", .array [.ofNat 1]), ("start", .ofNat 2),
      ("length", .ofNat 1), ("messageText", .string "f")]) =
        .ok ⟨none, 2, 1, .plain "f", none⟩ := rfl
  have hpairs : members.mapM fileOf = .ok pairs := by
    simp [members, pairs, entries, fileOf, RawEntry.listOfJson, harray, hobject, bind,
      Except.bind, pure, Except.pure, Except.map]
  obtain ⟨raw, hraw, _, _, _, _, hequal⟩ := ofText_keeps_last hparse hpairs
  have hkept : Kept pairs :=
    List.pairwise_cons.2 ⟨fun _ _ _ => rfl, List.pairwise_singleton _ _⟩
  rw [hequal.2 hkept] at hraw
  exact ⟨hparse, hpairs, hkept, hraw, entryCount_extendAll_empty pairs⟩

/-- Of a file that is named under two spellings the first entries are lost. -/
theorem ofText_loses_entries :
    let text := "\x7b\"/p/a.ts\":[[null,0,1,\"e\"]],\"/p//a.ts\":[[null,2,1,\"f\"]]\x7d"
    let first : RawEntry := ⟨none, 0, 1, .plain "e", none⟩
    let second : RawEntry := ⟨none, 2, 1, .plain "f", none⟩
    let pairs : List (Path × List RawEntry) := [(⟨"/p/a.ts"⟩, [first]), (⟨"/p//a.ts"⟩, [second])]
    ∃ members, Json.parse? text = some (.object members) ∧ (members.map (·.1)).Nodup ∧
      members.mapM fileOf = .ok pairs ∧ ofText text = .ok ⟨[(⟨"/p/a.ts"⟩, [second])]⟩ ∧
        empty.extendAll pairs = ⟨[(⟨"/p/a.ts"⟩, [first, second])]⟩ := by
  intro text first second pairs
  have hparse : Json.parse? text = some (.object
      [("/p/a.ts", .array [.array [.null, .ofNat 0, .ofNat 1, .string "e"]]),
        ("/p//a.ts", .array [.array [.null, .ofNat 2, .ofNat 1, .string "f"]])]) := by
    decide +kernel +zetaReduce
  have hfirst : RawEntry.ofJson (.array [.null, .ofNat 0, .ofNat 1, .string "e"]) = .ok first := rfl
  have hsecond : RawEntry.ofJson (.array [.null, .ofNat 2, .ofNat 1, .string "f"]) = .ok second :=
    rfl
  have hpairs : [("/p/a.ts", Value.array [.array [.null, .ofNat 0, .ofNat 1, .string "e"]]),
      ("/p//a.ts", .array [.array [.null, .ofNat 2, .ofNat 1, .string "f"]])].mapM fileOf =
        .ok pairs := by
    simp [fileOf, RawEntry.listOfJson, hfirst, hsecond, bind, Except.bind, pure, Except.pure,
      Except.map, pairs]
  have hsame : Path.same ⟨"/p/a.ts"⟩ ⟨"/p//a.ts"⟩ = true := by decide +kernel
  have hreplaced : empty.replaceAll pairs = ⟨[(⟨"/p/a.ts"⟩, [second])]⟩ := by
    simp [pairs, replaceAll, replace, alter, empty, hsame]
  have hextended : empty.extendAll pairs = ⟨[(⟨"/p/a.ts"⟩, [first, second])]⟩ := by
    simp [pairs, extendAll, extend, alter, empty, hsame]
  refine ⟨_, hparse, by simp, hpairs, ?_, hextended⟩
  rw [← hreplaced]
  exact ofText_eq_replaceAll hparse hpairs

end RawSet

end ScopedCheck

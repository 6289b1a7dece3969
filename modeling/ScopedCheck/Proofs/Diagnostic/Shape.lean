import ScopedCheck.Diagnostic.Shape

/-!
# Diagnostics as JSON values

What is encoded is decoded again, in the order in which it is written as well as
in the order of names.  Decoding goes by the names it knows: members under other
names may be put into any object, however deep, and nothing changes.
-/

namespace ScopedCheck

open Json (Value)

/-! ## Encoding and decoding -/

namespace Message

mutual

theorem chain?_toJson : ∀ link : MessageChain, chain? link.toJson = some link
  | .link text [] => by
      simp [MessageChain.toJson, chain?, chainFields?]
  | .link text (first :: rest) => by
      have hnext := chains?_listToJson (first :: rest)
      simp [MessageChain.toJson, chain?, chainFields?, hnext]

theorem chains?_listToJson : ∀ links : List MessageChain,
    chains? (MessageChain.listToJson links) = some links
  | [] => rfl
  | link :: rest => by
      simp only [MessageChain.listToJson, chains?, chain?_toJson link, chains?_listToJson rest]

end

theorem ofJson?_toJson (message : Message) : ofJson? message.toJson = some message := by
  cases message with
  | plain text => rfl
  | chain top =>
      obtain ⟨text, next⟩ := top
      have htop := chain?_toJson (.link text next)
      cases next <;> simpa [toJson, MessageChain.toJson, ofJson?] using htop

end Message

mutual

theorem MessageChain.keyed_toJson : ∀ link : MessageChain, link.toJson.keyed = link.toJson
  | .link text [] => by
      simp [toJson, Value.keyed, Json.keyedMembers, Json.setMember]
  | .link text (first :: rest) => by
      have hnext := keyedItems_listToJson (first :: rest)
      have hless : ¬ "next" < "messageText" := by decide
      simp [toJson, Value.keyed, Json.keyedMembers, Json.setMember, hnext, hless]

theorem MessageChain.keyedItems_listToJson : ∀ links : List MessageChain,
    Json.keyedItems (listToJson links) = listToJson links
  | [] => rfl
  | first :: rest => by
      simp only [listToJson, Json.keyedItems, keyed_toJson first, keyedItems_listToJson rest]

end

theorem Message.keyed_toJson (message : Message) : message.toJson.keyed = message.toJson := by
  cases message with
  | plain text => rfl
  | chain top => exact top.keyed_toJson

namespace RawEntry

/-- An entry whose numbers are offsets. -/
structure InRange (entry : RawEntry) : Prop where
  start : entry.start ≤ maxOffset
  length : entry.length ≤ maxOffset
  code : ∀ code ∈ entry.code, code ≤ maxOffset

theorem offsetOf_ofNat {n : Nat} (h : n ≤ maxOffset) : offsetOf (.ofNat n) = .ok n := by
  have hrange : (0 : Int) ≤ n ∧ (n : Int) ≤ maxOffset := by omega
  simp only [Value.ofNat, offsetOf, if_pos hrange, Int.toNat_natCast]

theorem keyed_toJson (entry : RawEntry) :
    entry.toJson.keyed = .object
      ((entry.code.map fun code => ("code", Value.ofNat code)).toList ++
        (entry.file.map fun path => ("file", Value.string path.text)).toList ++
          [("length", .ofNat entry.length), ("messageText", entry.message.toJson),
            ("start", .ofNat entry.start)]) := by
  obtain ⟨file, start, length, message, code⟩ := entry
  have hmessage := message.keyed_toJson
  cases file <;> cases code <;>
    simp +decide only [toJson, Value.keyed, Json.keyedMembers, Json.setMember, hmessage,
      Value.ofNat, Option.map_none, Option.map_some, Option.toList_none, Option.toList_some,
      List.nil_append, List.cons_append, if_true, if_false]

theorem optional_offsetOf_ofNat {n : Nat} (h : n ≤ maxOffset) :
    optional offsetOf (.ofNat n) = .ok (some n) := by
  have hoffset := offsetOf_ofNat h
  simp only [Value.ofNat] at hoffset ⊢
  simp only [optional, hoffset, Except.map]

theorem Draft.ofMembers_cons {name : String} {field : Field} (hname : field.name = name)
    {draft next : Draft} {value : Value} (hnew : draft.has field = false)
    (hset : draft.set field value = .ok next) (rest : List (String × Value)) :
    ofMembers draft ((name, value) :: rest) = ofMembers next rest := by
  subst hname
  simp only [ofMembers, field.ofName?_name, hnew, hset, Bool.false_eq_true, if_false]

theorem Draft.ofMembers_file {draft : Draft} (hnew : draft.file = none) (file : Option Path)
    (rest : List (String × Value)) :
    ofMembers draft ((file.map fun path => ("file", Value.string path.text)).toList ++ rest) =
      ofMembers { draft with file := file.map some } rest := by
  cases file with
  | none => simp [← hnew]
  | some path =>
      have hhas : draft.has .file = false := by simp [has, hnew]
      exact ofMembers_cons rfl hhas rfl rest

theorem Draft.ofMembers_code {draft : Draft} (hnew : draft.code = none) {code : Option Nat}
    (h : ∀ n ∈ code, n ≤ maxOffset) (rest : List (String × Value)) :
    ofMembers draft ((code.map fun n => ("code", Value.ofNat n)).toList ++ rest) =
      ofMembers { draft with code := code.map some } rest := by
  cases code with
  | none => simp [← hnew]
  | some n =>
      have hhas : draft.has .code = false := by simp [has, hnew]
      have hset : draft.set .code (.ofNat n) = .ok { draft with code := some (some n) } := by
        simp only [set, optional_offsetOf_ofNat (h n rfl), Except.map]
      exact ofMembers_cons rfl hhas hset rest

theorem Draft.finish_of_entry (entry : RawEntry) :
    finish ⟨entry.file.map some, some entry.start, some entry.length, some entry.message,
      entry.code.map some⟩ = .ok entry := by
  obtain ⟨file, start, length, message, code⟩ := entry
  cases file <;> cases code <;> rfl

theorem Draft.ofMembers_start {draft : Draft} (hnew : draft.start = none) {n : Nat}
    (h : n ≤ maxOffset) (rest : List (String × Value)) :
    ofMembers draft (("start", .ofNat n) :: rest) =
      ofMembers { draft with start := some n } rest := by
  have hhas : draft.has .start = false := by simp [has, hnew]
  have hset : draft.set .start (.ofNat n) = .ok { draft with start := some n } := by
    simp only [set, offsetOf_ofNat h, Except.map]
  exact ofMembers_cons rfl hhas hset rest

theorem Draft.ofMembers_length {draft : Draft} (hnew : draft.length = none) {n : Nat}
    (h : n ≤ maxOffset) (rest : List (String × Value)) :
    ofMembers draft (("length", .ofNat n) :: rest) =
      ofMembers { draft with length := some n } rest := by
  have hhas : draft.has .length = false := by simp [has, hnew]
  have hset : draft.set .length (.ofNat n) = .ok { draft with length := some n } := by
    simp only [set, offsetOf_ofNat h, Except.map]
  exact ofMembers_cons rfl hhas hset rest

theorem Draft.ofMembers_message {draft : Draft} (hnew : draft.message = none)
    (message : Message) (rest : List (String × Value)) :
    ofMembers draft (("messageText", message.toJson) :: rest) =
      ofMembers { draft with message := some message } rest := by
  have hhas : draft.has .messageText = false := by simp [has, hnew]
  have hset : draft.set .messageText message.toJson =
      .ok { draft with message := some message } := by
    simp only [set, message.ofJson?_toJson]
  exact ofMembers_cons rfl hhas hset rest

/-- An entry is read back in the order in which it is written and in the order of names. -/
theorem ofJson_toJson {entry : RawEntry} (h : entry.InRange) :
    ofJson entry.toJson = .ok entry ∧ ofJson entry.toJson.keyed = .ok entry := by
  have hfinish := Draft.finish_of_entry entry
  constructor
  · rw [toJson, ofJson, ← List.append_nil (Option.toList (Option.map _ entry.code)),
      List.append_assoc, Draft.ofMembers_file rfl]
    simp only [List.cons_append, List.nil_append]
    rw [Draft.ofMembers_start rfl h.start, Draft.ofMembers_length rfl h.length,
      Draft.ofMembers_message rfl, Draft.ofMembers_code rfl h.code]
    exact hfinish
  · rw [keyed_toJson, ofJson, List.append_assoc, Draft.ofMembers_code rfl h.code,
      Draft.ofMembers_file rfl, Draft.ofMembers_length rfl h.length,
      Draft.ofMembers_message rfl, Draft.ofMembers_start rfl h.start]
    exact hfinish

end RawEntry

/-! ## Members under other names -/

namespace Message

mutual

/-- A chain, and the same chain with more members under other names. -/
inductive MoreChain : Value → Value → Prop
  | same (value : Value) : MoreChain value value
  | array (text : Value) {next more : List Value} (hnext : MoreChains next more) :
      MoreChain (.array [text, .array next]) (.array [text, .array more])
  | object {members more : List (String × Value)} (hmembers : MoreMembers members more) :
      MoreChain (.object members) (.object more)

/-- Lists of chains, one by one. -/
inductive MoreChains : List Value → List Value → Prop
  | nil : MoreChains [] []
  | cons {value more : Value} {rest others : List Value} (hfirst : MoreChain value more)
      (hrest : MoreChains rest others) : MoreChains (value :: rest) (more :: others)

/-- The members of a chain, with others put in between and inside its explanations. -/
inductive MoreMembers : List (String × Value) → List (String × Value) → Prop
  | nil : MoreMembers [] []
  | keep (member : String × Value) {rest others : List (String × Value)}
      (hrest : MoreMembers rest others) : MoreMembers (member :: rest) (member :: others)
  | next {items more : List Value} (hitems : MoreChains items more)
      {rest others : List (String × Value)} (hrest : MoreMembers rest others) :
      MoreMembers (("next", .array items) :: rest) (("next", .array more) :: others)
  | add (name : String) (value : Value) (htext : name ≠ "messageText") (hnext : name ≠ "next")
      {rest others : List (String × Value)} (hrest : MoreMembers rest others) :
      MoreMembers rest ((name, value) :: others)

end

mutual

theorem chain?_eq_of_more : ∀ {value more : Value}, MoreChain value more →
    chain? more = chain? value
  | _, _, .same _ => rfl
  | _, _, .array text hnext => by
      have hchains := chains?_eq_of_more hnext
      cases text <;> simp [chain?, hchains]
  | _, _, .object hmembers => by
      simp only [chain?, chainFields?_eq_of_more hmembers none none]

theorem chains?_eq_of_more : ∀ {values more : List Value}, MoreChains values more →
    chains? more = chains? values
  | _, _, .nil => rfl
  | _, _, .cons hfirst hrest => by
      simp only [chains?, chain?_eq_of_more hfirst, chains?_eq_of_more hrest]

theorem chainFields?_eq_of_more : ∀ {members more : List (String × Value)},
    MoreMembers members more → ∀ (text : Option String) (next : Option (List MessageChain)),
      chainFields? text next more = chainFields? text next members
  | _, _, .nil => fun _ _ => rfl
  | _, _, .keep (name, value) hrest => fun text next => by
      have hothers := chainFields?_eq_of_more hrest
      unfold chainFields?
      simp only [hothers]
  | _, _, .next hitems hrest => fun text next => by
      have hothers := chainFields?_eq_of_more hrest
      have hchains := chains?_eq_of_more hitems
      unfold chainFields?
      simp only [hothers]
      cases next with
      | none => simp only [hchains]
      | some found => rfl
  | _, _, .add name value htext hnext hrest => fun text next => by
      have hothers := chainFields?_eq_of_more hrest text next
      rw [chainFields?.eq_def]
      simp only [beq_iff_eq, htext, hnext, if_false, hothers]

end

theorem ofJson?_eq_of_more {value more : Value} (h : MoreChain value more) :
    ofJson? more = ofJson? value := by
  have hchain := chain?_eq_of_more h
  cases h <;> simp [ofJson?, hchain]

end Message

namespace RawEntry

/-- The members of an entry, with others put in between and inside its message. -/
inductive MoreFields : List (String × Value) → List (String × Value) → Prop
  | nil : MoreFields [] []
  | keep (member : String × Value) {rest others : List (String × Value)}
      (hrest : MoreFields rest others) : MoreFields (member :: rest) (member :: others)
  | message {value more : Value} (hmessage : Message.MoreChain value more)
      {rest others : List (String × Value)} (hrest : MoreFields rest others) :
      MoreFields (("messageText", value) :: rest) (("messageText", more) :: others)
  | add (name : String) (value : Value) (hname : ∀ field : Field, field.name ≠ name)
      {rest others : List (String × Value)} (hrest : MoreFields rest others) :
      MoreFields rest ((name, value) :: others)

/-- An entry, and the same entry with more members under other names. -/
inductive MoreEntry : Value → Value → Prop
  | same (value : Value) : MoreEntry value value
  | object {members more : List (String × Value)} (hmembers : MoreFields members more) :
      MoreEntry (.object members) (.object more)
  | array (file start length : Value) {message more : Value} (rest : List Value)
      (hmessage : Message.MoreChain message more) :
      MoreEntry (.array (file :: start :: length :: message :: rest))
        (.array (file :: start :: length :: more :: rest))

theorem ofName?_eq_none {name : String} (h : ∀ field : Field, field.name ≠ name) :
    Field.ofName? name = none := by
  rw [Field.ofName?, List.find?_eq_none]
  intro field _
  simp [h field]

theorem Draft.set_messageText {value more : Value} (h : Message.MoreChain value more)
    (draft : Draft) : draft.set .messageText more = draft.set .messageText value := by
  simp only [set, Message.ofJson?_eq_of_more h]

theorem Draft.ofMembers_eq_of_more {members more : List (String × Value)}
    (h : MoreFields members more) (draft : Draft) :
    ofMembers draft more = ofMembers draft members := by
  induction h generalizing draft with
  | nil => rfl
  | keep member _ ih => simp only [ofMembers, ih]
  | message hmessage _ ih =>
      have hname : Field.ofName? "messageText" = some .messageText :=
        Field.ofName?_name .messageText
      simp only [ofMembers, hname, set_messageText hmessage, ih]
  | add name value hname _ ih => simp only [ofMembers, ofName?_eq_none hname, ih]

theorem ofJson_eq_of_more {value more : Value} (h : MoreEntry value more) :
    ofJson more = ofJson value := by
  cases h with
  | same => rfl
  | object hmembers => simp only [ofJson, Draft.ofMembers_eq_of_more hmembers]
  | array file start length rest hmessage =>
      simp only [ofJson, Field.all, Draft.ofItems, Draft.set_messageText hmessage,
        List.length_cons]

/--
Decoding undoes encoding, of messages and of entries.

Members under other names make no difference to it, wherever they are put in.
-/
theorem decode_encoded_and_more :
    (∀ message : Message, Message.ofJson? message.toJson = some message ∧
        Message.ofJson? message.toJson.keyed = some message) ∧
      (∀ entry : RawEntry, entry.InRange →
        ofJson entry.toJson = .ok entry ∧ ofJson entry.toJson.keyed = .ok entry) ∧
      (∀ value more : Value, Message.MoreChain value more →
        Message.ofJson? more = Message.ofJson? value) ∧
      ∀ value more : Value, MoreEntry value more → ofJson more = ofJson value := by
  refine ⟨?_, ?_, ?_, ?_⟩
  · intro message
    rw [message.keyed_toJson]
    exact ⟨message.ofJson?_toJson, message.ofJson?_toJson⟩
  · intro entry h
    exact ofJson_toJson h
  · intro value more h
    exact Message.ofJson?_eq_of_more h
  · intro value more h
    exact ofJson_eq_of_more h

/-- A chain of two links, the second one without text, with a member more in every object. -/
theorem decode_encoded_and_more_nested :
    let entry : RawEntry := ⟨none, 3, maxOffset, .chain (.link "a" [.link "" []]), some 7⟩
    let more : Value := .object [("start", .ofNat 3), ("category", .ofNat 1),
      ("length", .ofNat maxOffset),
      ("messageText", .object [("code", .null), ("messageText", .string "a"),
        ("next", .array [.object [("messageText", .string ""), ("info", .object [])]])]),
      ("code", .ofNat 7)]
    entry.InRange ∧ MoreEntry entry.toJson more ∧ ofJson entry.toJson.keyed = .ok entry ∧
      ofJson more = .ok entry := by
  intro entry more
  have hrange : entry.InRange := by
    refine ⟨by decide, by decide, ?_⟩
    intro code hcode
    obtain rfl := Option.some.inj hcode
    decide
  have hlink : Message.MoreChain (.object [("messageText", .string "")])
      (.object [("messageText", .string ""), ("info", .object [])]) :=
    .object (.keep _ (.add "info" _ (by decide) (by decide) .nil))
  have hmessage : Message.MoreChain entry.message.toJson
      (.object [("code", .null), ("messageText", .string "a"),
        ("next", .array [.object [("messageText", .string ""), ("info", .object [])]])]) :=
    .object (.add "code" _ (by decide) (by decide) (.keep _ (.next (.cons hlink .nil) .nil)))
  have hcategory : ∀ field : Field, field.name ≠ "category" := by
    intro field
    cases field <;> decide
  have hmore : MoreEntry entry.toJson more :=
    .object (.keep _ (.add "category" _ hcategory (.keep _ (.message hmessage (.keep _ .nil)))))
  obtain ⟨_, hround, _, hsame⟩ := decode_encoded_and_more
  have hentry := hround entry hrange
  exact ⟨hrange, hmore, hentry.2, (hsame _ _ hmore).trans hentry.1⟩

end RawEntry

end ScopedCheck

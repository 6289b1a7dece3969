import ScopedCheck.Diagnostic.RawSet
import ScopedCheck.Json.Printer
import ScopedCheck.Source.Span
import ScopedCheck.Text.Quoted

/-!
# The shape of diagnostics in JSON

A message is a string or a chain, an entry an object or an array of its fields
in declaration order.  Unknown names are ignored.  `ShapeError` lists every way
in which well-formed JSON can fail to be a diagnostic.
-/

namespace ScopedCheck

inductive Field where
  | file
  | start
  | length
  | messageText
  | code
  deriving DecidableEq, Repr

namespace Field

def name : Field → String
  | file => "file"
  | start => "start"
  | length => "length"
  | messageText => "messageText"
  | code => "code"

def all : List Field :=
  [file, start, length, messageText, code]

def ofName? (text : String) : Option Field :=
  all.find? (·.name == text)

def position : Field → Nat
  | file => 0
  | start => 1
  | length => 2
  | messageText => 3
  | code => 4

theorem ofName?_name (field : Field) : ofName? field.name = some field := by
  cases field <;> decide

end Field

/-- What a reader of diagnostics wants at some place. -/
inductive Wanted where
  | offset
  | sequence
  | map
  | entry
  | path
  deriving DecidableEq, Repr

inductive ShapeError where
  | missingField (field : Field)
  | duplicateField (field : Field)
  /-- A value of another type than the wanted one; of containers only the kind is kept. -/
  | wrongType (found : Json.Value) (wanted : Wanted)
  /-- An integer that is no offset. -/
  | outOfRange (value : Int)
  /-- An array that ends before all required fields. -/
  | tooShort (count : Nat)
  /-- An array that goes on after all fields. -/
  | tooLong (count : Nat)
  /-- Neither a text nor a chain. -/
  | notMessage
  deriving Repr

namespace ShapeError

/-- How an error names a value that it did not want. -/
def describe : Json.Value → String
  | .null => "null"
  | .bool value => "boolean `" ++ String.ofList (Json.boolText value) ++ "`"
  | .number (.int value) => "integer `" ++ String.ofList (Json.Number.int value).text ++ "`"
  | .number (.float value) =>
      "floating point `" ++ String.ofList (Json.Number.float value).text ++ "`"
  | .string text => "string " ++ Text.quoted text
  | .array _ => "sequence"
  | .object _ => "map"

/-- How an error names what it wanted. -/
def Wanted.text : Wanted → String
  | .offset => "u32"
  | .sequence => "a sequence"
  | .map => "a map"
  | .entry => "struct RawDiagnosticEntry"
  | .path => "a UTF-8 path string"

def message : ShapeError → String
  | missingField field => "missing field `" ++ field.name ++ "`"
  | duplicateField field => "duplicate field `" ++ field.name ++ "`"
  | wrongType found wanted =>
      "invalid type: " ++ describe found ++ ", expected " ++ Wanted.text wanted
  | outOfRange value =>
      "invalid value: integer `" ++ String.ofList (Json.Number.int value).text ++
        "`, expected u32"
  | tooShort count =>
      "invalid length " ++ toString count ++
        ", expected struct RawDiagnosticEntry with 5 elements"
  | tooLong count =>
      "invalid length " ++ toString count ++ ", expected fewer elements in array"
  | notMessage => "data did not match any variant of untagged enum Message"

end ShapeError

/-! ## Decoding values -/

namespace Message

mutual

/-- A chain: an object, or an array of its text and its explanations. -/
def chain? : Json.Value → Option MessageChain
  | .array [] => some (.link "" [])
  | .array [.string text] => some (.link text [])
  | .array [.string text, .array next] => (chains? next).map (.link text)
  | .object members => chainFields? none none members
  | _ => none

def chains? : List Json.Value → Option (List MessageChain)
  | [] => some []
  | value :: rest =>
      match chain? value, chains? rest with
      | some found, some others => some (found :: others)
      | _, _ => none

/-- Reads the members of a chain; neither of the two it knows may come twice. -/
def chainFields? (text : Option String) (next : Option (List MessageChain)) :
    List (String × Json.Value) → Option MessageChain
  | [] => some (.link (text.getD "") (next.getD []))
  | (name, value) :: rest =>
      if name == "messageText" then
        match text, value with
        | none, .string found => chainFields? (some found) next rest
        | _, _ => none
      else if name == "next" then
        match next, value with
        | none, .array items =>
            match chains? items with
            | some found => chainFields? text (some found) rest
            | none => none
        | _, _ => none
      else chainFields? text next rest

end

/-- A message: a text or a chain. -/
def ofJson? : Json.Value → Option Message
  | .string text => some (.plain text)
  | value => (chain? value).map .chain

end Message

namespace RawEntry

/-- An offset, a length or a code. -/
def offsetOf : Json.Value → Except ShapeError Nat
  | .number (.int value) =>
      if 0 ≤ value ∧ value ≤ maxOffset then .ok value.toNat else .error (.outOfRange value)
  | value => .error (.wrongType value .offset)

def pathOf : Json.Value → Except ShapeError Path
  | .string text => .ok ⟨text⟩
  | value => .error (.wrongType value .path)

/-- A value that may be `null`. -/
def optional {α : Type} (decode : Json.Value → Except ShapeError α) :
    Json.Value → Except ShapeError (Option α)
  | .null => .ok none
  | value => (decode value).map some

structure Draft where
  file : Option (Option Path) := none
  start : Option Nat := none
  length : Option Nat := none
  message : Option Message := none
  code : Option (Option Nat) := none

namespace Draft

def has (draft : Draft) : Field → Bool
  | .file => draft.file.isSome
  | .start => draft.start.isSome
  | .length => draft.length.isSome
  | .messageText => draft.message.isSome
  | .code => draft.code.isSome

def set (draft : Draft) (field : Field) (value : Json.Value) : Except ShapeError Draft :=
  match field with
  | .file => (optional pathOf value).map fun found => { draft with file := some found }
  | .start => (offsetOf value).map fun found => { draft with start := some found }
  | .length => (offsetOf value).map fun found => { draft with length := some found }
  | .messageText =>
      match Message.ofJson? value with
      | some found => .ok { draft with message := some found }
      | none => .error .notMessage
  | .code => (optional offsetOf value).map fun found => { draft with code := some found }

def finish (draft : Draft) : Except ShapeError RawEntry :=
  match draft.start, draft.length, draft.message with
  | some start, some length, some message =>
      .ok ⟨draft.file.getD none, start, length, message, draft.code.getD none⟩
  | none, _, _ => .error (.missingField .start)
  | _, none, _ => .error (.missingField .length)
  | _, _, none => .error (.missingField .messageText)

def ofMembers (draft : Draft) : List (String × Json.Value) → Except ShapeError Draft
  | [] => .ok draft
  | (name, value) :: rest =>
      match Field.ofName? name with
      | none => ofMembers draft rest
      | some field =>
          if draft.has field then .error (.duplicateField field)
          else
            match draft.set field value with
            | .ok draft => ofMembers draft rest
            | .error cause => .error cause

/-- What an array that ends before a field leaves of the entry. -/
def endsBefore (draft : Draft) (field : Field) : Except ShapeError Draft :=
  match field with
  | .file => .error (.tooShort 1)
  | .code => .ok draft
  | field => .error (.tooShort field.position)

/-- Reads the items of an array as the given fields; what is left over is left. -/
def ofItems (draft : Draft) :
    List Field → List Json.Value → Except ShapeError (Draft × List Json.Value)
  | [], items => .ok (draft, items)
  | field :: _, [] => (draft.endsBefore field).map (·, [])
  | field :: fields, value :: rest =>
      match draft.set field value with
      | .ok draft => ofItems draft fields rest
      | .error cause => .error cause

end Draft

def ofJson : Json.Value → Except ShapeError RawEntry
  | .object members => do (← Draft.ofMembers {} members).finish
  | .array items => do
      let (draft, rest) ← Draft.ofItems {} Field.all items
      let entry ← draft.finish
      if rest.isEmpty then return entry else throw (.tooLong items.length)
  | value => .error (.wrongType value .entry)

def listOfJson : Json.Value → Except ShapeError (List RawEntry)
  | .array items => items.mapM ofJson
  | value => .error (.wrongType value .sequence)

end RawEntry

/-! ## Encoding values -/

mutual

/-- The value of a chain; explanations are written when there are any. -/
def MessageChain.toJson : MessageChain → Json.Value
  | .link text [] => .object [("messageText", .string text)]
  | .link text (first :: rest) =>
      .object [("messageText", .string text),
        ("next", .array (MessageChain.listToJson (first :: rest)))]

def MessageChain.listToJson : List MessageChain → List Json.Value
  | [] => []
  | chain :: rest => chain.toJson :: MessageChain.listToJson rest

end

def Message.toJson : Message → Json.Value
  | .plain text => .string text
  | .chain top => top.toJson

/-- The value of an entry; an unknown file or code is left out. -/
def RawEntry.toJson (entry : RawEntry) : Json.Value :=
  .object <|
    (entry.file.map fun path => ("file", Json.Value.string path.text)).toList ++
      [("start", .ofNat entry.start), ("length", .ofNat entry.length),
        ("messageText", entry.message.toJson)] ++
      (entry.code.map fun code => ("code", Json.Value.ofNat code)).toList

end ScopedCheck

import ScopedCheck.Text.Lines

/-!
# Messages

A message is one text or a chain of explanations.  Links without text occur in
chains; they are skipped, and their explanations take their place.
-/

namespace ScopedCheck

/-- One link of a chain of explanations. -/
inductive MessageChain where
  | link (text : String) (next : List MessageChain)
  deriving Repr, Inhabited

inductive Message where
  | plain (text : String)
  /-- A text with explanations, one level deeper each. -/
  | chain (top : MessageChain)
  deriving Repr, Inhabited

namespace MessageChain

mutual

/-- The texts of a chain in display order, each with its depth. -/
def entriesAt (depth : Nat) : MessageChain → List (Nat × String)
  | link text next =>
      if text.isEmpty then entriesOfList depth next
      else (depth, text) :: entriesOfList (depth + 1) next

def entriesOfList (depth : Nat) : List MessageChain → List (Nat × String)
  | [] => []
  | chain :: rest => entriesAt depth chain ++ entriesOfList depth rest

end

theorem entriesOfList_eq_flatMap (depth : Nat) (chains : List MessageChain) :
    entriesOfList depth chains = chains.flatMap (entriesAt depth) := by
  induction chains with
  | nil => rfl
  | cons chain rest ih => simp [entriesOfList, ih]

end MessageChain

namespace Message

/-- Shown for a chain without any text. -/
def placeholder : String := "(no message text)"

/-- The texts of a message in display order, each with its depth. -/
def entries : Message → List (Nat × String)
  | plain text => [(0, text)]
  | chain top => top.entriesAt 0

def text : Message → String
  | plain text => text
  | chain top =>
      match top.entriesAt 0 with
      | (_, text) :: _ => text
      | [] => placeholder

/-- The lines of one entry, indented by two spaces per level. -/
def indentedLines (entry : Nat × String) : List (List Char) :=
  (Text.lines entry.2.toList).map (List.replicate (2 * entry.1) ' ' ++ ·)

def displayLines (message : Message) : List (List Char) :=
  message.entries.flatMap indentedLines

def flatten (message : Message) : String :=
  match message.displayLines with
  | [] => placeholder
  | lines => String.ofList (Text.joinWith ['\n'] lines)

end Message

end ScopedCheck

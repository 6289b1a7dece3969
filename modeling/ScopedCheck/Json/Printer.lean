import ScopedCheck.Json.Value
import ScopedCheck.Decimal.Shortest

/-!
# Writing JSON

Compact text has no blanks at all, pretty text one item per line and two spaces
per level.  Both write members in the order they are given.
-/

namespace ScopedCheck

namespace Json

/--
Numbers are written positionally when their leading digit is between `10 ^ -5`
and `10 ^ 15`, and with a signed exponent of at least two digits otherwise.
-/
def floatLayout : Decimal.Layout :=
  ⟨-5, 15, 2⟩

def Number.text : Number → List Char
  | .int value => if value < 0 then '-' :: Decimal.digitsOf value.natAbs
      else Decimal.digitsOf value.natAbs
  | .float value => floatLayout.text value

def hexDigit (n : Nat) : Char :=
  if n < 10 then Char.ofNat ('0'.toNat + n) else Char.ofNat ('a'.toNat + (n - 10))

def escapeChar (c : Char) : List Char :=
  if c = '"' then ['\\', '"']
  else if c = '\\' then ['\\', '\\']
  else if c = '\x08' then ['\\', 'b']
  else if c = '\x0C' then ['\\', 'f']
  else if c = '\n' then ['\\', 'n']
  else if c = '\r' then ['\\', 'r']
  else if c = '\t' then ['\\', 't']
  else if c.toNat < 0x20 then
    ['\\', 'u', '0', '0', hexDigit (c.toNat / 16), hexDigit (c.toNat % 16)]
  else [c]

def stringLiteral (text : String) : List Char :=
  '"' :: text.toList.flatMap escapeChar ++ ['"']

def boolText (value : Bool) : List Char :=
  if value then ['t', 'r', 'u', 'e'] else ['f', 'a', 'l', 's', 'e']

mutual

def Value.compactChars : Value → List Char
  | .null => ['n', 'u', 'l', 'l']
  | .bool value => boolText value
  | .number value => value.text
  | .string text => stringLiteral text
  | .array items => '[' :: compactItems items ++ [']']
  | .object members => '{' :: compactMembers members ++ ['}']

def compactItems : List Value → List Char
  | [] => []
  | [item] => item.compactChars
  | item :: rest => item.compactChars ++ ',' :: compactItems rest

def compactMembers : List (String × Value) → List Char
  | [] => []
  | [(name, value)] => stringLiteral name ++ ':' :: value.compactChars
  | (name, value) :: rest =>
      stringLiteral name ++ ':' :: value.compactChars ++ ',' :: compactMembers rest

end

/-- A line break and the indentation of a level. -/
def newline (level : Nat) : List Char :=
  '\n' :: List.replicate (2 * level) ' '

mutual

/-- Pretty text of a value that starts at a level of indentation. -/
def Value.prettyChars (level : Nat) : Value → List Char
  | .null => ['n', 'u', 'l', 'l']
  | .bool value => boolText value
  | .number value => value.text
  | .string text => stringLiteral text
  | .array [] => ['[', ']']
  | .array (item :: rest) =>
      '[' :: prettyItems (level + 1) (item :: rest) ++ newline level ++ [']']
  | .object [] => ['{', '}']
  | .object (member :: rest) =>
      '{' :: prettyMembers (level + 1) (member :: rest) ++ newline level ++ ['}']

def prettyItems (level : Nat) : List Value → List Char
  | [] => []
  | [item] => newline level ++ item.prettyChars level
  | item :: rest => newline level ++ item.prettyChars level ++ ',' :: prettyItems level rest

def prettyMembers (level : Nat) : List (String × Value) → List Char
  | [] => []
  | [(name, value)] =>
      newline level ++ stringLiteral name ++ [':', ' '] ++ value.prettyChars level
  | (name, value) :: rest =>
      newline level ++ stringLiteral name ++ [':', ' '] ++ value.prettyChars level ++
        ',' :: prettyMembers level rest

end

def Value.compact (value : Value) : String :=
  String.ofList value.compactChars

def Value.pretty (value : Value) : String :=
  String.ofList (value.prettyChars 0)

end Json

end ScopedCheck

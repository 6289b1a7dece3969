import ScopedCheck.Script.Lexer
import ScopedCheck.Script.Tree

/-!
# Reading tokens in order

A cursor stands on one token.  A reader moves it, and where it fails the cursor
stays, so that a reader of something larger may go on from there.
-/

namespace ScopedCheck

namespace Script

/-- A place in a script. -/
structure Cursor where
  token : Token
  /-- Whether a line ends between the token and the one before it. -/
  afterBreak : Bool
  /-- The text from the token on. -/
  here : List Char
  /-- The text after the token. -/
  rest : List Char
  deriving Inhabited

namespace Cursor

/-- The place of the first token of a text; `broken` says whether it starts a line. -/
def ofText (broken : Bool) (text : List Char) : Cursor :=
  let (afterBreak, here) := skipGap .blanks broken text
  let (token, rest) := scan here
  ⟨token, afterBreak, here, rest⟩

def next (cursor : Cursor) : Cursor :=
  ofText false cursor.rest

def endsStatement (cursor : Cursor) : Bool :=
  cursor.token == .semicolon || cursor.token == .endOfText || cursor.token == .braceClose ||
    cursor.afterBreak

def isWord (cursor : Cursor) (word : String) : Bool :=
  cursor.token == .name word

/-- The word at the place, if the token is a name. -/
def word? (cursor : Cursor) : Option String :=
  match cursor.token with
  | .name word => some word
  | _ => none

/-- Whether the token can stand for a variable. -/
def isReference (cursor : Cursor) : Bool :=
  match cursor.word? with
  | some word => !isReserved word
  | none => false

end Cursor

structure Scope where
  /-- Bound on how often anything can be repeated: more than the text has tokens. -/
  limit : Nat
  /-- Whether `in` is an operator. -/
  allowsIn : Bool := true
  inFunction : Bool := false
  inParameters : Bool := false
  inGenerator : Bool := false
  inAsync : Bool := false
  /-- Whether properties of `super` can be named. -/
  allowsSuper : Bool := false
  /-- Whether the head of a `for` begins here. -/
  inForHead : Bool := false

/-- Reads something at a cursor; a failed reader leaves the cursor where it failed. -/
abbrev Reader := ReaderT Scope (ExceptT Unit (StateM Cursor))

variable {α : Type}

def fail : Reader α :=
  throw ()

def advance : Reader Unit :=
  modify Cursor.next

def at? (token : Token) : Reader Bool :=
  return (← get).token == token

def atWord? (word : String) : Reader Bool :=
  return (← get).isWord word

def take? (token : Token) : Reader Bool := do
  if ← at? token then
    advance
    return true
  else return false

def takeWord? (word : String) : Reader Bool :=
  take? (.name word)

def expect (token : Token) : Reader Unit := do
  if !(← take? token) then fail

def expectWord (word : String) : Reader Unit :=
  expect (.name word)

/-- Takes what ends a statement, if it is there; only a semicolon is more than a place. -/
def endStatement? : Reader Bool := do
  if ← take? .semicolon then return true
  else return (← get).endsStatement

def endStatement : Reader Unit := do
  if !(← endStatement?) then fail

def resumeAt (text : List Char) : Reader Unit :=
  set (Cursor.ofText false text)

def anyName : Reader String := do
  match (← get).word? with
  | some word =>
      advance
      return word
  | none => fail

/-- Reads on after a failure from where it happened. -/
def attempt (reader : Reader α) (otherwise : Reader α) : Reader α :=
  tryCatch reader fun _ => otherwise

/-- Repeats a reader while it says so, up to a bound. -/
def repeatUpTo (body : Reader Bool) : Nat → Reader Unit
  | 0 => fail
  | bound + 1 => do
      if ← body then repeatUpTo body bound

def repeatWhile (body : Reader Bool) : Reader Unit := do
  repeatUpTo body (← read).limit

/-- Collects what a reader gives until it gives nothing, up to a bound. -/
def collectUpTo (reader : Reader (Option α)) : Nat → Reader (List α)
  | 0 => fail
  | bound + 1 => do
      match ← reader with
      | some found => return found :: (← collectUpTo reader bound)
      | none => return []

def collect (reader : Reader (Option α)) : Reader (List α) := do
  collectUpTo reader (← read).limit

def withIn (reader : Reader α) : Reader α :=
  withReader (fun scope => { scope with allowsIn := true }) reader

/-- Parts of a script that contain one another. -/
inductive Phrase where
  /-- An expression without commas. -/
  | assignment
  /-- An operand with the operators before it; says whether it may begin an arrow. -/
  | unary (mayBeArrow : Bool)
  /-- Binary operators above a precedence, after their first operand. -/
  | operators (left : Expr) (above : Nat)
  /-- An operand with the properties after it. -/
  | leftHand
  /-- What `new` applies to, with the properties after it. -/
  | callee (mayBeArrow : Bool)
  /-- The target of a declaration; gives its name if it is a plain one. -/
  | pattern (refusesLet : Bool)
  /-- A statement; says whether declarations are statements here. -/
  | statement (declarations : Bool)

abbrev Phrase.Result : Phrase → Type
  | assignment => Expr
  | unary _ => Expr
  | operators _ _ => Expr
  | leftHand => Expr
  | callee _ => Expr
  | pattern _ => Option String
  | statement _ => Statement

abbrev Grammar := (phrase : Phrase) → Reader phrase.Result

end Script

end ScopedCheck

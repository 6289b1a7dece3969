import ScopedCheck.Script.Expression

/-!
# Statements

A statement ends with a semicolon, or where one may be left out.  After a
declaration and before a binary operator a missing one is passed over.
-/

namespace ScopedCheck

namespace Script

namespace Grammar

def condition (grammar : Grammar) : Reader Unit := do
  expect .parenOpen
  let _ ← grammar.innerExpression
  expect .parenClose

def body (grammar : Grammar) : Reader Unit := do
  let _ ← grammar (.statement false)

/-! ## Declarations -/

inductive DeclarationKind where
  | var
  | let
  | const
  /-- Variables that are disposed of. -/
  | using
  deriving DecidableEq, Repr

/-- Whether a name of its own kind cannot be declared. -/
def DeclarationKind.refusesLet : DeclarationKind → Bool
  | .let => true
  | .const => true
  | _ => false

/-- Reads the value of a declared variable, where a pattern needs one. -/
def initializer? (grammar : Grammar) (kind : DeclarationKind) (inHead isPlain : Bool) :
    Reader (Option Expr) := do
  if inHead && ((← atWord? "in") || (← atWord? "of")) then return none
  if ← take? .assign then return some (← grammar .assignment)
  if !isPlain && kind != .const then fail
  return none

/-- Reads a declared variable; gives it when it has a plain name and a value. -/
def declarator (grammar : Grammar) (kind : DeclarationKind) (inHead : Bool) :
    Reader (Option Binding) := do
  let name? ← grammar (.pattern kind.refusesLet)
  let value? ← grammar.initializer? kind inHead name?.isSome
  return do return ⟨← name?, ← value?⟩

/-- Reads declared variables, up to a bound; a comma may be the last thing before a semicolon. -/
def declaratorsUpTo (grammar : Grammar) (kind : DeclarationKind) (inHead : Bool) :
    Nat → Reader (List Binding)
  | 0 => fail
  | bound + 1 => do
      if ← at? .semicolon then return []
      let found ← grammar.declarator kind inHead
      if ← take? .comma then
        return found.toList ++ (← grammar.declaratorsUpTo kind inHead bound)
      else return found.toList

def declarators (grammar : Grammar) (kind : DeclarationKind) (inHead : Bool) :
    Reader (List Binding) := do
  let allowIn (scope : Scope) : Scope :=
    { scope with allowsIn := kind != .var || !inHead }
  withReader allowIn (grammar.declaratorsUpTo kind inHead (← read).limit)

/-- Passes over what stands where a declaration should have ended. -/
def skipToEnd (grammar : Grammar) : Reader Unit := do
  attempt (do let _ ← grammar.expression) (pure ())
  repeatWhile do
    if ← endStatement? then return false
    advance
    return (← get).token != .malformed

def declaration (grammar : Grammar) (kind : DeclarationKind) : Reader (List Binding) := do
  let bindings ← grammar.declarators kind false
  if !(← endStatement?) then grammar.skipToEnd
  return bindings

/-- Whether a token shows that a `let` before it declares something. -/
def followsLet : Token → Bool
  | .braceOpen => true
  | .bracketOpen => true
  | .name word => !isKeyword word || word == "let" || word == "yield" || word == "await"
  | _ => false

/-- Whether a `using` at the cursor declares something. -/
def atUsing? : Reader Bool := do
  let cursor ← get
  return cursor.isWord "using" && !cursor.next.afterBreak && cursor.next.isReference

def usingDeclaration (grammar : Grammar) : Reader Statement := do
  advance
  let _ ← grammar.declarators .using false
  endStatement
  return .other

/-- Reads a declaration of variables, if one begins at the cursor. -/
def declaration? (grammar : Grammar) : Reader (Option (List Binding)) := do
  let cursor ← get
  if ← takeWord? "var" then return some (← grammar.declaration .var)
  else if ← takeWord? "const" then return some (← grammar.declaration .const)
  else if cursor.isWord "let" && followsLet cursor.next.token then
    advance
    return some (← grammar.declaration .let)
  else return none

/-- Reads a function or a class that is declared, if one begins at the cursor. -/
def definition? (grammar : Grammar) (needsName : Bool) : Reader Bool := do
  let cursor ← get
  if ← takeWord? "function" then
    grammar.function false needsName
    return true
  else if ← takeWord? "class" then
    grammar.classDefinition needsName
    return true
  else if cursor.isWord "async" && cursor.next.isWord "function" && !cursor.next.afterBreak then
    advance
    advance
    grammar.function true needsName
    return true
  else return false

/-! ## Loops -/

/-- Reads the rest of a head with a condition and a step, after its first semicolon. -/
def countingHead (grammar : Grammar) : Reader Unit := do
  if !(← take? .semicolon) then
    let _ ← grammar.innerExpression
    expect .semicolon
  if !(← at? .parenClose) then
    let _ ← grammar.innerExpression

/-- Reads the rest of a head after its target; tells whether it goes over values. -/
def eachHead (grammar : Grammar) : Reader Bool := do
  if ← takeWord? "of" then
    let _ ← grammar.inner
    return true
  else
    expectWord "in"
    let _ ← grammar.innerExpression
    return false

/-- Reads what follows the first part of a head; tells whether it goes over values. -/
def afterHeadStart (grammar : Grammar) (isTarget : Bool) : Reader Bool := do
  if (← atWord? "of") || (← atWord? "in") then
    if !isTarget then fail
    grammar.eachHead
  else
    expect .semicolon
    grammar.countingHead
    return false

/-- The kind of declaration that begins at the cursor of a head. -/
def headDeclaration? : Reader (Option DeclarationKind) := do
  let cursor ← get
  if cursor.isWord "var" then return some .var
  else if cursor.isWord "const" then return some .const
  else if cursor.isWord "let" && followsLet cursor.next.token then return some .let
  else return none

/-- Reads the head of a `for`; tells whether it goes over values. -/
def forHead (grammar : Grammar) : Reader Bool := do
  match ← headDeclaration? with
  | some kind =>
      advance
      let _ ← grammar.declarators kind true
      grammar.afterHeadStart true
  | none =>
      if ← take? .semicolon then
        grammar.countingHead
        return false
      let enter (scope : Scope) : Scope := { scope with allowsIn := false, inForHead := true }
      let start ← withReader enter grammar.expression
      grammar.afterHeadStart (start.isPattern false)

def forLoop (grammar : Grammar) : Reader Unit := do
  let waits ← takeWord? "await"
  expect .parenOpen
  let overValues ← grammar.forHead
  expect .parenClose
  grammar.body
  if waits && !overValues then fail

def doLoop (grammar : Grammar) : Reader Unit := do
  grammar.body
  expectWord "while"
  grammar.condition
  let _ ← take? .semicolon

/-! ## Choices -/

def choice (grammar : Grammar) : Reader Unit := do
  grammar.condition
  grammar.body
  if ← takeWord? "else" then grammar.body

def caseBody (grammar : Grammar) : Reader Unit :=
  repeatWhile do
    if (← at? .endOfText) || (← at? .braceClose) || (← atWord? "case") ||
        (← atWord? "default") then
      return false
    let _ ← grammar (.statement true)
    return true

/-- Reads the cases of a `switch`, up to a bound; at most one of them is the default. -/
def casesUpTo (grammar : Grammar) (seenDefault : Bool) : Nat → Reader Unit
  | 0 => fail
  | bound + 1 => do
      if ← takeWord? "case" then
        let _ ← grammar.innerExpression
        expect .colon
        grammar.caseBody
        grammar.casesUpTo seenDefault bound
      else if ← takeWord? "default" then
        if seenDefault then fail
        expect .colon
        grammar.caseBody
        grammar.casesUpTo true bound

def switch (grammar : Grammar) : Reader Unit := do
  grammar.condition
  expect .braceOpen
  grammar.casesUpTo false (← read).limit
  expect .braceClose

/-! ## Exceptions -/

def catchClause (grammar : Grammar) : Reader Unit := do
  if ← takeWord? "catch" then
    if ← take? .parenOpen then
      let _ ← grammar (.pattern false)
      expect .parenClose
    grammar.block

def finallyClause (grammar : Grammar) : Reader Unit := do
  if ← takeWord? "finally" then grammar.block

def tryBlock (grammar : Grammar) : Reader Unit := do
  grammar.block
  grammar.catchClause
  grammar.finallyClause

def strayClauses (grammar : Grammar) : Reader Unit := do
  attempt grammar.catchClause (pure ())
  attempt grammar.finallyClause (pure ())

/-! ## Jumps -/

def jump : Reader Unit := do
  if !(← endStatement?) then
    let _ ← bindingName false
    endStatement

def returned (grammar : Grammar) : Reader Unit := do
  if !(← get).endsStatement then
    let _ ← grammar.innerExpression
  endStatement

def thrown (grammar : Grammar) : Reader Unit := do
  if (← get).afterBreak then fail
  let _ ← grammar.innerExpression
  endStatement

/-! ## Expressions as statements -/

def labelled (grammar : Grammar) : Reader Statement := do
  if ← takeWord? "function" then grammar.function false true else grammar.body
  return .other

def expressionEnd (grammar : Grammar) (found : Expr) : Reader Statement := do
  if ← endStatement? then return .expression found
  else if (← get).token.isOperator then
    return .expression (← grammar (.operators found 0))
  else fail

/-- Reads an expression as a statement, or a statement with a label. -/
def expressionStatement (grammar : Grammar) : Reader Statement := do
  match ← grammar.innerExpression with
  | .identifier name =>
      if ← take? .colon then grammar.labelled else grammar.expressionEnd (.identifier name)
  | found => grammar.expressionEnd found

/-- Reads a statement that begins by waiting for what begins with `using`, after the keyword. -/
def awaitUsing (grammar : Grammar) : Reader Statement := do
  if ← atUsing? then grammar.usingDeclaration
  else
    let operand ← grammar.awaited
    let found ← withIn (grammar (.operators operand 0))
    let _ ← take? .semicolon
    return .expression found

/-- Reads a dynamic import as a statement; other imports and exports stand at the top only. -/
def importStatement (grammar : Grammar) : Reader Statement := do
  let following := (← get).next.token
  if following != .parenOpen && following != .dot then fail
  let found ← grammar.innerExpression
  let _ ← take? .semicolon
  return .expression found

/-! ## All statements -/

/-- Reads the rest of a statement whose keyword says all that matters. -/
def keywordStatement? (grammar : Grammar) (word : String) : Option (Reader Unit) :=
  match word with
  | "break" => some jump
  | "continue" => some jump
  | "debugger" => some endStatement
  | "do" => some grammar.doLoop
  | "for" => some grammar.forLoop
  | "if" => some grammar.choice
  | "return" => some grammar.returned
  | "switch" => some grammar.switch
  | "throw" => some grammar.thrown
  | "try" => some grammar.tryBlock
  | "while" => some (do grammar.condition; grammar.body)
  | "with" => some (do grammar.condition; grammar.body)
  | _ => none

def wordStatement (grammar : Grammar) (declarations : Bool) (word : String) :
    Reader Statement := do
  match grammar.keywordStatement? word with
  | some rest =>
      advance
      rest
      return .other
  | none =>
      if word == "catch" || word == "finally" then
        grammar.strayClauses
        return .other
      if word == "import" || word == "export" then return ← grammar.importStatement
      if declarations && (← atUsing?) then return ← grammar.usingDeclaration
      if declarations || word == "var" then
        if let some bindings ← grammar.declaration? then return .declaration bindings
      if ← grammar.definition? true then return .other
      grammar.expressionStatement

/-- Reads a statement; `declarations` says whether declarations are statements here. -/
def statement (grammar : Grammar) (declarations : Bool) : Reader Statement := do
  let cursor ← get
  if declarations && cursor.isWord "await" && cursor.next.isWord "using" then
    advance
    return ← grammar.awaitUsing
  match cursor.token with
  | .braceOpen =>
      grammar.block
      return .other
  | .semicolon =>
      advance
      return .other
  | .name word => grammar.wordStatement declarations word
  | _ => grammar.expressionStatement

end Grammar

end Script

end ScopedCheck

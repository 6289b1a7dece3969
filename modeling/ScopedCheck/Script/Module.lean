import ScopedCheck.Script.Statement

/-!
# Modules

A module is a list of statements, imports and exports.  The readers of phrases
that contain one another are tied together here; every phrase inside another one
uses up some of a bound that the length of the text supplies.
-/

namespace ScopedCheck

namespace Script

namespace Grammar

/-- Reads a phrase, given readers of the phrases inside. -/
def phrase (grammar : Grammar) : Grammar
  | .assignment => grammar.assignment
  | .unary mayBeArrow => grammar.unary mayBeArrow
  | .operators left above => grammar.operators left above
  | .leftHand => grammar.leftHand false
  | .callee mayBeArrow => grammar.callee mayBeArrow
  | .pattern refusesLet => grammar.pattern refusesLet
  | .statement declarations => grammar.statement declarations

/-- Reads phrases that contain one another up to a depth. -/
def upTo : Nat → Grammar
  | 0 => fun _ => fail
  | depth + 1 => (upTo depth).phrase

/-! ## Imports -/

def source : Reader Unit := do
  match (← get).token with
  | .string _ => advance
  | _ => fail

/-- Reads where names come from, and the end of the statement. -/
def fromClause : Reader Unit := do
  expectWord "from"
  source
  endStatement

def foreignName : Reader (Option String) := do
  match (← get).token with
  | .string _ =>
      advance
      return none
  | _ => return some (← anyName)

/-- Reads a name that is imported; what is no variable's name needs another one. -/
def importSpecifier : Reader Unit := do
  let name? ← foreignName
  if ← takeWord? "as" then
    let _ ← bindingName false
  else
    match name? with
    | some name => if isReserved name then fail
    | none => fail

/-- Reads the next of the names in braces; false at the end. -/
def nextSpecifier (specifier : Reader Unit) : Reader Bool := do
  if (← at? .endOfText) || (← at? .braceClose) then return false
  specifier
  if !(← at? .braceClose) then expect .comma
  return true

def specifiers (specifier : Reader Unit) : Reader Unit := do
  expect .braceOpen
  repeatWhile (nextSpecifier specifier)
  expect .braceClose

/-- Reads all names of a module, or those in braces, if they are asked for. -/
def importedNames : Reader Unit := do
  if ← take? .star then
    expectWord "as"
    let _ ← bindingName false
  else if ← at? .braceOpen then specifiers importSpecifier

def importRest : Reader Unit := do
  match (← get).token with
  | .string _ =>
      advance
      let _ ← take? .semicolon
  | _ =>
      if (← get).isReference then
        let _ ← bindingName false
        if !(← atWord? "from") then expect .comma
      importedNames
      fromClause

/-! ## Exports -/

def exportSpecifier : Reader Unit := do
  let _ ← foreignName
  if ← takeWord? "as" then
    let _ ← foreignName

def exportedNames : Reader Unit := do
  specifiers exportSpecifier
  if ← atWord? "from" then fromClause
  else
    let _ ← take? .semicolon

def exportAll : Reader Unit := do
  if ← takeWord? "as" then
    let _ ← foreignName
    if ← atWord? "from" then fromClause else exportedNames
  else fromClause

def exportDefault (grammar : Grammar) : Reader Statement := do
  if ← grammar.definition? false then return .other
  let value ← grammar.inner
  endStatement
  return .exportDefault value

def exportRest (grammar : Grammar) : Reader Statement := do
  if ← takeWord? "default" then return ← grammar.exportDefault
  if ← take? .star then exportAll
  else if ← grammar.definition? true then pure ()
  else
    match ← grammar.declaration? with
    | some _ => pure ()
    | none => exportedNames
  return .other

/-! ## The whole module -/

def moduleStatement (grammar : Grammar) : Reader Statement := do
  let following := (← get).next.token
  if (← atWord? "import") && following != .parenOpen && following != .dot then
    advance
    importRest
    return .other
  else if ← takeWord? "export" then grammar.exportRest
  else grammar.statement true

def nextStatement? (grammar : Grammar) : Reader (Option Statement) := do
  if ← at? .endOfText then return none else return some (← grammar.moduleStatement)

def statements (grammar : Grammar) : Reader (List Statement) :=
  collect grammar.nextStatement?

end Grammar

/-- Drops the marks that may stand before a script: of the byte order, and a line for a shell. -/
def dropPreamble (text : List Char) : List Char :=
  let text := match text with
    | '\uFEFF' :: rest => rest
    | _ => text
  match text with
  | '#' :: '!' :: rest => rest.dropWhile (!isLineEnd ·)
  | _ => text

/-- Phrases inside one another that one token can open, with room to spare. -/
def phrasesPerToken : Nat := 8

/-- The statements of a module; none when it is not well-formed. -/
def parse? (text : List Char) : Option (List Statement) :=
  let text := dropPreamble text
  let limit := text.length + 2
  let reader := (Grammar.upTo (phrasesPerToken * limit)).statements
  match (reader.run { limit }).run.run (Cursor.ofText true text) with
  | (.ok statements, _) => some statements
  | (.error (), _) => none

end Script

end ScopedCheck

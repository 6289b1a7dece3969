import ScopedCheck.Script.Cursor

/-!
# Declared names, functions and classes

The readers here take the readers of the phrases inside as an argument.
-/

namespace ScopedCheck

namespace Script

/-! ## Names and keys -/

def bindingName (refusesLet : Bool) : Reader String := do
  match (← get).word? with
  | some word =>
      if isUnbindable word || (refusesLet && word == "let") then fail
      advance
      return word
  | none => fail

inductive Key where
  | word (name : String)
  /-- A string; no value when it has lone surrogates. -/
  | string (value : Option String)
  /-- A computed, numeric or private key. -/
  | other
  deriving DecidableEq, Repr, Inhabited

def Key.name? : Key → Option String
  | word name => some name
  | string value => value
  | other => none

namespace Grammar

def inner (grammar : Grammar) : Reader Expr :=
  withIn (grammar .assignment)

def key (grammar : Grammar) : Reader Key := do
  match (← get).token with
  | .name word => advance; return .word word
  | .string value => advance; return .string value
  | .number => advance; return .other
  | .bracketOpen =>
      advance
      let _ ← grammar.inner
      expect .bracketClose
      return .other
  | _ => fail

def classKey (grammar : Grammar) : Reader Key := do
  if ← take? .privateName then return .other else grammar.key

/-! ## Patterns -/

def element (grammar : Grammar) : Reader Unit := do
  let _ ← grammar (.pattern false)
  if ← take? .assign then
    let _ ← grammar.inner

def arrayPatternPart (grammar : Grammar) : Reader Bool := do
  if (← at? .endOfText) || (← at? .bracketClose) then return false
  if ← take? .comma then return true
  if ← take? .spread then
    let _ ← grammar (.pattern false)
  else grammar.element
  if !(← at? .bracketClose) then expect .comma
  return true

def arrayPattern (grammar : Grammar) : Reader Unit := do
  expect .bracketOpen
  repeatWhile grammar.arrayPatternPart
  expect .bracketClose

/-- Reads a member of an object pattern; tells whether it gathers the rest in a nested pattern. -/
def patternMember (grammar : Grammar) : Reader Bool := do
  if ← take? .spread then
    return (← grammar (.pattern false)).isNone
  let key ← grammar.key
  if ← take? .colon then
    grammar.element
    return false
  match key with
  | .word _ =>
      if ← take? .assign then
        let _ ← grammar.inner
      return false
  | _ => fail

/-- Reads the next member of an object pattern, up to the closing brace. -/
def nextPatternMember? (grammar : Grammar) : Reader (Option Bool) := do
  if ← take? .braceClose then return none
  let nested ← grammar.patternMember
  if !(← at? .braceClose) then expect .comma
  return some nested

/-- Reads an object pattern; the rest, gathered last, has to have a plain name. -/
def objectPattern (grammar : Grammar) : Reader Unit := do
  expect .braceOpen
  let nested ← collect grammar.nextPatternMember?
  if nested.getLast? == some true then fail

/-- Reads a target of a declaration; gives its name if it is a plain one. -/
def pattern (grammar : Grammar) (refusesLet : Bool) : Reader (Option String) := do
  match (← get).token with
  | .bracketOpen =>
      grammar.arrayPattern
      return none
  | .braceOpen =>
      grammar.objectPattern
      return none
  | _ => return some (← bindingName refusesLet)

/-! ## Functions -/

/-- Reads statements up to a closing brace; the end of the text closes all braces. -/
def blockRest (grammar : Grammar) : Reader Unit :=
  repeatWhile do
    if (← at? .endOfText) || (← take? .braceClose) then return false
    let _ ← grammar (.statement true)
    return true

def block (grammar : Grammar) : Reader Unit := do
  expect .braceOpen
  grammar.blockRest

structure FunctionKind where
  isAsync : Bool := false
  isGenerator : Bool := false
  /-- Whether it is a member, which knows properties of `super`. -/
  isMember : Bool := false
  isConstructor : Bool := false

def FunctionKind.parameterScope (kind : FunctionKind) (scope : Scope) : Scope :=
  { scope with
    allowsIn := true, inForHead := false, inFunction := false, inParameters := true,
    inAsync := kind.isAsync, inGenerator := kind.isGenerator, allowsSuper := kind.isMember }

def FunctionKind.bodyScope (kind : FunctionKind) (scope : Scope) : Scope :=
  { kind.parameterScope scope with inFunction := true, inParameters := false }

def parameter (grammar : Grammar) (kind : FunctionKind) : Reader Bool := do
  if ← at? .parenClose then return false
  if ← take? .spread then
    let _ ← grammar (.pattern false)
    if !kind.isConstructor then
      if ← take? .assign then
        let _ ← grammar.inner
  else grammar.element
  if !(← at? .parenClose) then expect .comma
  return true

def functionRest (grammar : Grammar) (kind : FunctionKind) : Reader Unit := do
  expect .parenOpen
  withReader kind.parameterScope (repeatWhile (grammar.parameter kind))
  expect .parenClose
  withReader kind.bodyScope grammar.block

def function (grammar : Grammar) (isAsync needsName : Bool) : Reader Unit := do
  let isGenerator ← take? .star
  if needsName || (← get).isReference then
    let _ ← bindingName false
  grammar.functionRest { isAsync, isGenerator }

/-- Reads the body of an arrow; tells whether it is in braces. -/
def arrowBody (grammar : Grammar) (isAsync : Bool) : Reader Bool := do
  let enter (scope : Scope) : Scope :=
    { scope with
      inForHead := false, inFunction := true, inParameters := false, inAsync := isAsync
      inGenerator := false }
  if ← at? .braceOpen then
    withReader enter (withIn grammar.block)
    return true
  else
    let _ ← withReader enter (grammar .assignment)
    return false

/-! ## Classes -/

/-- The scope of a value or a block that belongs to a class. -/
def classScope (scope : Scope) : Scope :=
  { scope with
    allowsIn := true, inForHead := false, inAsync := false, inGenerator := false
    allowsSuper := true }

def endsKey (newlineCounts : Bool) : Reader Bool := do
  let cursor ← get
  return cursor.token == .assign || cursor.token == .braceClose ||
    (if newlineCounts then cursor.endsStatement else cursor.token == .semicolon)

def field (grammar : Grammar) (key : Key) : Reader Unit := do
  if key.name? == some "constructor" then fail
  if ← take? .assign then
    let _ ← withReader classScope (grammar .assignment)
  let _ ← endStatement?

def method (grammar : Grammar) (isAsync isGenerator isConstructor : Bool) : Reader Unit :=
  grammar.functionRest { isAsync, isGenerator, isConstructor, isMember := true }

/-- Reads a member of a class after a key that is no method's. -/
def memberAfterKey (grammar : Grammar) (key : Key) : Reader Unit := do
  let cursor ← get
  let isAccessor := (key == .word "get" || key == .word "set") && !(← endsKey false) &&
    !(cursor.afterBreak && cursor.token == .star)
  if !isAccessor && (← endsKey true) then grammar.field key
  else if key == .word "async" && !cursor.afterBreak then
    let isGenerator ← take? .star
    let _ ← grammar.classKey
    grammar.method true isGenerator false
  else if isAccessor then
    let _ ← grammar.classKey
    grammar.method false false false
  else fail

/-- Reads a member of a class after the word that makes it static. -/
def memberAfterStatic (grammar : Grammar) (isStatic : Bool) : Reader Unit := do
  if isStatic && (← at? .braceOpen) then
    withReader classScope grammar.block
  else if ← take? .star then
    let _ ← grammar.classKey
    grammar.method false true false
  else
    let key ← grammar.classKey
    if ← at? .parenOpen then
      grammar.method false false (!isStatic && key.name? == some "constructor")
    else grammar.memberAfterKey key

def classMember (grammar : Grammar) : Reader Unit := do
  if ← takeWord? "static" then
    if ← at? .parenOpen then grammar.method false false false
    else if ← endsKey false then grammar.field (.word "static")
    else grammar.memberAfterStatic true
  else grammar.memberAfterStatic false

/-- Reads the next member of a class; false at the end, which the end of the text is too. -/
def nextClassMember (grammar : Grammar) : Reader Bool := do
  if (← at? .endOfText) || (← take? .braceClose) then return false
  if !(← take? .semicolon) then grammar.classMember
  return true

def classRest (grammar : Grammar) : Reader Unit := do
  if ← takeWord? "extends" then
    let _ ← grammar .leftHand
  expect .braceOpen
  repeatWhile grammar.nextClassMember

def classDefinition (grammar : Grammar) (needsName : Bool) : Reader Unit := do
  if needsName || (← get).isReference then
    let _ ← bindingName true
  grammar.classRest

end Grammar

end Script

end ScopedCheck

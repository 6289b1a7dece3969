import ScopedCheck.Script.Function

/-!
# Expressions

From the inside out: literals, primary expressions, properties and calls,
operators, assignments.  Parentheses may turn out to hold the parameters of an
arrow; they are read as expressions first and as patterns after the fact.
-/

namespace ScopedCheck

namespace Script

namespace Grammar

def expression (grammar : Grammar) : Reader Expr := do
  let first ← grammar .assignment
  if ← at? .comma then
    repeatWhile do
      if ← take? .comma then
        let _ ← grammar .assignment
        return true
      else return false
    return .other
  else return first

def innerExpression (grammar : Grammar) : Reader Expr :=
  withIn grammar.expression

/-! ## Literals -/

def item (grammar : Grammar) : Reader Item := do
  if ← take? .spread then return .spread (← grammar.inner)
  else return .single (← grammar.inner)

def nextItem? (grammar : Grammar) : Reader (Option Item) := do
  if (← at? .endOfText) || (← at? .bracketClose) then return none
  if ← take? .comma then return some .hole
  let item ← grammar.item
  if !(← at? .bracketClose) then expect .comma
  return some item

def arrayLiteral (grammar : Grammar) : Reader Expr := do
  expect .bracketOpen
  let items ← collect grammar.nextItem?
  expect .bracketClose
  return .array items

/-- Reads a member of an object whose key begins like a word of its own. -/
def prefixedMember (grammar : Grammar) (word : String) : Reader Member := do
  let isAsync := word == "async"
  let isGenerator ← if isAsync then take? .star else pure false
  let key ← grammar.key
  grammar.method isAsync isGenerator false
  return if isAsync then .method key.name? else .accessor

/-- Reads a member of an object after a key that is a word and no value's or method's. -/
def memberAfterWord (grammar : Grammar) (word : String) : Reader Member := do
  let _ ← take? .question
  if ← take? .assign then
    let _ ← grammar.inner
    return .shorthand word
  if (← at? .comma) || (← at? .braceClose) then return .shorthand word
  if word == "get" || word == "set" || word == "async" then grammar.prefixedMember word
  else fail

def objectMember (grammar : Grammar) : Reader Member := do
  if ← take? .spread then return .spread (← grammar.inner)
  if ← take? .star then
    let key ← grammar.key
    grammar.method false true false
    return .method key.name?
  let key ← grammar.key
  if ← take? .colon then return .field key.name? (← grammar.inner)
  if ← at? .parenOpen then
    grammar.method false false false
    return .method key.name?
  match key with
  | .word word => grammar.memberAfterWord word
  | _ => fail

/-- Reads the next member of an object, up to the closing brace. -/
def nextMember? (grammar : Grammar) : Reader (Option Member) := do
  if ← take? .braceClose then return none
  let member ← grammar.objectMember
  if !(← at? .braceClose) then expect .comma
  return some member

def objectLiteral (grammar : Grammar) : Reader Expr := do
  expect .braceOpen
  return .object (← collect grammar.nextMember?)

/-- Reads a regular expression that begins at the cursor; what begins like one is no token. -/
def regularExpression : Reader Expr := do
  let cursor ← get
  match regex? cursor.here with
  | some rest =>
      resumeAt rest
      return .other
  | none =>
      set { cursor with token := .malformed }
      fail

/--
Reads a template, whose next part begins right after the token at the cursor; only
a tagged one may have invalid escapes.
-/
def templateUpTo (grammar : Grammar) (tagged : Bool) : Nat → Reader Unit
  | 0 => fail
  | bound + 1 => do
      let text := (← get).rest
      match templatePart text true text with
      | none => fail
      | some (valid, ending, rest) =>
          if !valid && !tagged then fail
          resumeAt rest
          if ending == .substitution then
            let _ ← grammar.innerExpression
            if !(← at? .braceClose) then fail
            grammar.templateUpTo tagged bound

def template (grammar : Grammar) (tagged : Bool) : Reader Expr := do
  grammar.templateUpTo tagged (← read).limit
  return .other

/-! ## Arrows and parentheses -/

def arrowAfterName (grammar : Grammar) (isAsync : Bool) : Reader Expr := do
  let _ ← grammar.arrowBody isAsync
  return .arrow

/--
Reads the next items in parentheses.

An arrow with a single name for its parameter is complete before the mark is
met; a mark that is met all the same follows a line break, and belongs to the
first item if that is a name.
-/
def nextInParens? (grammar : Grammar) (first : Option Item) : Reader (Option (List Item)) := do
  if (← at? .endOfText) || (← at? .parenClose) then return none
  let item ← grammar.item
  let mut items := [item]
  if ← take? .arrow then
    match first.getD item with
    | .single (.identifier _) =>
        let _ ← grammar.arrowBody false
        items := [item, .single .arrow]
    | _ => pure ()
  if !(← at? .parenClose) then expect .comma
  return some items

def inParensUpTo (grammar : Grammar) (first : Option Item) : Nat → Reader (List Item)
  | 0 => fail
  | bound + 1 => do
      match ← grammar.nextInParens? first with
      | none => return []
      | some items => return items ++ (← grammar.inParensUpTo (first.or items.head?) bound)

/-- What parentheses that hold no parameters stand for. -/
def parenthesized : List Item → Reader Expr
  | [.single value] => return .parenthesized value
  | items =>
      let isSpread : Item → Bool
        | .spread _ => true
        | _ => false
      if items.isEmpty || items.any isSpread then fail else return .parenthesized .other

def arrowAfterParens (grammar : Grammar) (mayBeArrow isAsync : Bool) (items : List Item) :
    Reader Expr := do
  if (← get).afterBreak || !mayBeArrow then fail
  advance
  if !arePatterns true items then fail
  let inBraces ← grammar.arrowBody isAsync
  if inBraces && (← get).token.isOperator then grammar (.operators .arrow 0)
  else return .arrow

/-- Reads parentheses, or the arrow that they begin; `isAsync` tells of a word before them. -/
def parens (grammar : Grammar) (mayBeArrow isAsync : Bool) : Reader Expr := do
  expect .parenOpen
  let items ← grammar.inParensUpTo none (← read).limit
  expect .parenClose
  if ← at? .arrow then grammar.arrowAfterParens mayBeArrow isAsync items
  else if isAsync then return .other
  else parenthesized items

def reference (grammar : Grammar) (mayBeArrow : Bool) : Reader Expr := do
  let name ← anyName
  if mayBeArrow && !(← get).afterBreak && (← take? .arrow) then grammar.arrowAfterName false
  else return .identifier name

def asyncStart (grammar : Grammar) (mayBeArrow : Bool) : Reader Expr := do
  let following := (← get).next
  if following.isWord "function" && !following.afterBreak then
    advance
    advance
    grammar.function true false
    return .other
  else if mayBeArrow && following.token == .parenOpen && !following.afterBreak then
    advance
    grammar.parens mayBeArrow true
  else if mayBeArrow && following.isReference && !following.afterBreak then
    advance
    if (← read).inForHead && following.isWord "of" && following.next.token != .arrow then
      return .identifier "async"
    let _ ← bindingName false
    expect .arrow
    grammar.arrowAfterName true
  else grammar.reference mayBeArrow

/-! ## Primary expressions -/

def wordStart (grammar : Grammar) (mayBeArrow : Bool) (word : String) : Reader Expr :=
  match word with
  | "async" => grammar.asyncStart mayBeArrow
  | "this" | "null" | "true" | "false" => do
      advance
      return .other
  | "function" => do
      advance
      grammar.function false false
      return .other
  | "class" => do
      advance
      grammar.classDefinition false
      return .other
  | word => if isReserved word && word != "let" then fail else grammar.reference mayBeArrow

def primary (grammar : Grammar) (mayBeArrow : Bool) : Reader Expr := do
  let cursor ← get
  match cursor.token with
  | .name word => grammar.wordStart mayBeArrow word
  | .string value =>
      advance
      return .string value
  | .number =>
      advance
      return .other
  | .privateName =>
      advance
      return .other
  | .bracketOpen => grammar.arrayLiteral
  | .braceOpen => grammar.objectLiteral
  | .parenOpen => grammar.parens mayBeArrow false
  | .backquote => grammar.template false
  | .slash => regularExpression
  | .assignWith => regularExpression
  | _ => fail

/-! ## Properties and calls -/

def nextArgument (grammar : Grammar) (refusesTrailing : Bool) : Reader Bool := do
  if (← at? .endOfText) || (← at? .parenClose) then return false
  let _ ← grammar.item
  if ← take? .comma then
    if refusesTrailing && (← at? .parenClose) then fail
    return true
  else return false

def arguments (grammar : Grammar) (refusesTrailing : Bool) : Reader Unit := do
  expect .parenOpen
  repeatWhile (grammar.nextArgument refusesTrailing)
  expect .parenClose

def isChain : Expr → Bool
  | .chain => true
  | _ => false

/-- Reads one step from a value: a property, a call, or a template that it is a tag of. -/
def step? (grammar : Grammar) (calls : Bool) (base : Expr) : Reader (Option Expr) := do
  let conditional ← take? .chain
  let chained := conditional || isChain base
  if ← take? .bracketOpen then
    let _ ← grammar.innerExpression
    expect .bracketClose
    return some (if chained then .chain else .otherProperty)
  else if (conditional || calls) && (← at? .parenOpen) then
    grammar.arguments false
    return some (if chained then .chain else .other)
  else if conditional || (← take? .dot) then
    if ← take? .privateName then return some (if chained then .chain else .otherProperty)
    let name ← anyName
    return some (if chained then .chain else .property base name)
  else if ← at? .backquote then return some (← grammar.template true)
  else return none

def stepsUpTo (grammar : Grammar) (calls : Bool) (base : Expr) : Nat → Reader Expr
  | 0 => fail
  | bound + 1 => do
      match ← grammar.step? calls base with
      | some next => grammar.stepsUpTo calls next bound
      | none => return base

def steps (grammar : Grammar) (calls : Bool) (base : Expr) : Reader Expr := do
  grammar.stepsUpTo calls base (← read).limit

def afterSuper (grammar : Grammar) (calls : Bool) : Reader Expr := do
  if calls && (← at? .parenOpen) then
    grammar.arguments false
    grammar.steps calls .other
  else if !(← read).allowsSuper then fail
  else if ← take? .bracketOpen then
    let _ ← grammar.innerExpression
    expect .bracketClose
    grammar.steps calls .otherProperty
  else
    expect .dot
    let _ ← anyName
    grammar.steps calls .otherProperty

def afterImport (grammar : Grammar) (calls : Bool) : Reader Expr := do
  if ← take? .dot then
    let name ← anyName
    if name == "meta" then return ← grammar.steps calls .other
    if name != "defer" && name != "source" then fail
  if !calls then fail
  grammar.arguments true
  grammar.steps calls .other

/-- Reads what `new` applies to, and then the arguments if there are any. -/
def construction (grammar : Grammar) : Reader Expr := do
  if ← take? .dot then
    expectWord "target"
    grammar.steps false .other
  else
    if isChain (← grammar (.callee false)) then fail
    if ← at? .parenOpen then
      grammar.arguments false
      grammar.steps false .other
    else return .bareNew

def callee (grammar : Grammar) (mayBeArrow : Bool) : Reader Expr := do
  if ← takeWord? "new" then grammar.construction
  else if ← takeWord? "super" then grammar.afterSuper false
  else if ← takeWord? "import" then grammar.afterImport false
  else
    match ← grammar.primary mayBeArrow with
    | .arrow => return .arrow
    | base => grammar.steps false base

def leftHand (grammar : Grammar) (mayBeArrow : Bool) : Reader Expr := do
  if ← takeWord? "super" then grammar.afterSuper true
  else if ← takeWord? "import" then grammar.afterImport true
  else
    match ← grammar (.callee mayBeArrow) with
    | .arrow => return .arrow
    | .bareNew => return .bareNew
    | base =>
        if ← at? .parenOpen then
          grammar.arguments false
          grammar.steps true (if isChain base then .chain else .other)
        else return base

/-! ## Operators -/

def isPrefix : Token → Bool
  | .plus | .minus | .bang | .tilde => true
  | .name word => word == "delete" || word == "typeof" || word == "void"
  | _ => false

/--
Reads what is waited for, after the keyword.

Outside asynchronous functions the keyword is a name where no operand can follow.
-/
def awaited (grammar : Grammar) : Reader Expr := do
  if ← at? .star then fail
  let cursor ← get
  let stands := cursor.endsStatement || cursor.token == .parenClose ||
    cursor.token == .bracketClose || cursor.token == .comma
  if stands && !(← read).inAsync then return .identifier "await"
  let _ ← grammar (.unary false)
  return .unary

/-- Reads an operand and the operator that may count it up or down. -/
def counted (grammar : Grammar) (mayBeArrow : Bool) : Reader Expr := do
  match ← grammar.leftHand mayBeArrow with
  | .arrow => return .arrow
  | operand =>
      let cursor ← get
      if !cursor.afterBreak && (cursor.token == .increment || cursor.token == .decrement) then
        advance
        return .operation
      else return operand

/-- Reads an operand with the operators before it; what those apply to is passed over if need be. -/
def unary (grammar : Grammar) (mayBeArrow : Bool) : Reader Expr := do
  let token := (← get).token
  if token == .increment || token == .decrement then
    advance
    let _ ← grammar (.unary false)
    return .operation
  else if isPrefix token then
    advance
    let _ ← attempt (grammar (.unary false)) (return .invalid)
    return .unary
  else if ← takeWord? "await" then grammar.awaited
  else grammar.counted mayBeArrow

/-- The precedence of the binary operator at the cursor. -/
def operatorAt? : Reader (Option Nat) := do
  let cursor ← get
  if cursor.isWord "instanceof" || (cursor.isWord "in" && (← read).allowsIn) then
    return some Token.wordPrecedence
  else return cursor.token.precedence?

/-- Whether an operand cannot be raised to a power as it stands. -/
def refusesPower : Expr → Bool
  | .unary => true
  | _ => false

/-- Reads the binary operators above a precedence that follow an operand. -/
def operators (grammar : Grammar) (left : Expr) (above : Nat) : Reader Expr := do
  match ← operatorAt? with
  | none => return left
  | some precedence =>
      if precedence ≤ above then return left
      let isPower ← at? .power
      advance
      if isPower && refusesPower left then fail
      let operand ← grammar (.unary false)
      let _ ← grammar (.operators operand (if isPower then precedence - 1 else precedence))
      grammar (.operators .operation above)

def binary (grammar : Grammar) (mayBeArrow : Bool) : Reader Expr := do
  let first ← attempt (grammar (.unary mayBeArrow)) do
    if (← operatorAt?).isSome then return .invalid else fail
  match first with
  | .arrow => return .arrow
  | first => grammar (.operators first 0)

def conditional (grammar : Grammar) (mayBeArrow : Bool) : Reader Expr := do
  match ← grammar.binary mayBeArrow with
  | .arrow => return .arrow
  | condition =>
      if ← take? .question then
        let _ ← grammar.inner
        expect .colon
        let _ ← grammar .assignment
        return .operation
      else return condition

/-! ## Assignments -/

def yielded (grammar : Grammar) : Reader Expr := do
  let scope ← read
  if scope.inParameters && !scope.inFunction then fail
  let cursor ← get
  if cursor.endsStatement then return .other
  if (← take? .star) || cursor.token.opensOperand then
    let _ ← grammar .assignment
  return .other

def assigned (grammar : Grammar) (target : Expr) : Reader Expr := do
  if ← at? .assign then
    if !target.isTarget then fail
    advance
    return .assignment target (← grammar .assignment)
  else if ← at? .assignWith then
    if !target.isReference then fail
    advance
    return .assignment target (← grammar .assignment)
  else return target

def beginsArrow : Token → Bool
  | .parenOpen => true
  | .name word => !isKeyword word || word == "yield"
  | _ => false

def assignment (grammar : Grammar) : Reader Expr := do
  if (← read).inGenerator && (← takeWord? "yield") then grammar.yielded
  else
    match ← grammar.conditional (beginsArrow (← get).token) with
    | .arrow => return .arrow
    | found => if found.isComplete then return found else grammar.assigned found

end Grammar

end Script

end ScopedCheck

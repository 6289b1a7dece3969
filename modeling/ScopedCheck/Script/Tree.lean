/-!
# Trees of scripts

A tree keeps what tells exports, their literals and assignable forms apart.
Everything else that a script may say is one of a few kinds of operation.
-/

namespace ScopedCheck

namespace Script

mutual

inductive Expr where
  /-- A variable. -/
  | identifier (name : String)
  /-- A string; no value when it has lone surrogates. -/
  | string (value : Option String)
  | array (items : List Item)
  | object (members : List Member)
  /-- A named property of a value. -/
  | property (object : Expr) (name : String)
  /-- Any other property: a computed or private one, or one of `super`. -/
  | otherProperty
  /-- A chain with a conditional step. -/
  | chain
  | parenthesized (inner : Expr)
  /-- An assignment, by whatever operator. -/
  | assignment (target value : Expr)
  | arrow
  /-- An operator before its only operand, waiting for a value included. -/
  | unary
  /-- Binary and conditional operations, counting up and down. -/
  | operation
  /-- A `new` without arguments. -/
  | bareNew
  /-- A misspelled operand that is passed over. -/
  | invalid
  /-- Anything else: other literals, calls, functions, classes. -/
  | other

inductive Item where
  /-- Nothing before a comma. -/
  | hole
  | single (value : Expr)
  | spread (value : Expr)

/-- A member of an object literal; the names of computed and numeric keys are unknown. -/
inductive Member where
  | field (name : Option String) (value : Expr)
  | method (name : Option String)
  /-- A getter or a setter. -/
  | accessor
  /-- A variable under its own name, perhaps with a default. -/
  | shorthand (name : String)
  | spread (value : Expr)

end

deriving instance Repr, Inhabited for Expr
deriving instance Repr, Inhabited for Item
deriving instance Repr, Inhabited for Member

structure Binding where
  name : String
  value : Expr
  deriving Repr, Inhabited

inductive Statement where
  | exportDefault (value : Expr)
  | expression (value : Expr)
  /-- A declaration that is not exported, with its plain names. -/
  | declaration (bindings : List Binding)
  | other
  deriving Repr, Inhabited

/-! ## Literals as patterns

A literal that turns out to be the target of an assignment, or the parameters of
an arrow, is read as a pattern after the fact.  Parts that cannot be assigned to
are passed over; members with a body of their own cannot be.
-/

mutual

/--
Whether an expression can be read as a pattern; `binding` says whether the pattern
declares its names.
-/
def Expr.isPattern (binding : Bool) : Expr → Bool
  | .array items => arePatterns binding items
  | .object members => areTargets binding members
  | _ => true

/-- Whether the items of an array can be read as patterns; only the last may be spread. -/
def arePatterns (binding : Bool) : List Item → Bool
  | [] => true
  | .hole :: rest => arePatterns binding rest
  | .single value :: rest => value.isPattern binding && arePatterns binding rest
  | [.spread value] => value.isPattern binding
  | .spread _ :: rest => arePatterns binding rest

def areTargets (binding : Bool) : List Member → Bool
  | [] => true
  | .field _ value :: rest => value.isPattern binding && areTargets binding rest
  | .method _ :: _ => false
  | .accessor :: _ => false
  | .shorthand _ :: rest => areTargets binding rest
  | .spread value :: rest => (binding || value.isPattern binding) && areTargets binding rest

end

/-- Whether an expression that is no literal can be assigned to. -/
def Expr.isReference : Expr → Bool
  | .identifier _ => true
  | .property _ _ => true
  | .otherProperty => true
  | .chain => true
  | .parenthesized _ => true
  | .invalid => true
  | _ => false

/-- Whether an expression can stand before `=`. -/
def Expr.isTarget : Expr → Bool
  | .array items => arePatterns false items
  | .object members => areTargets false members
  | expr => expr.isReference

/-- Whether an expression ends before an assignment could follow. -/
def Expr.isComplete : Expr → Bool
  | .operation => true
  | .unary => true
  | _ => false

end Script

end ScopedCheck

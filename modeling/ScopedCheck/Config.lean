import ScopedCheck.FileTree
import ScopedCheck.Script.Module

/-!
# The configuration of checks

The configuration is a script that is read and never run.  What counts are the
objects that it exports, written out or by the name of a variable that is declared
as one.  Later exports overwrite what they mention and leave the rest.
-/

namespace ScopedCheck

open Script (Expr Item Member Binding Statement)

structure Config where
  /-- Rules for files whose diagnostics are dropped. -/
  ignore : List String := []
  /-- Patterns of files that are always part of the check. -/
  alwaysInclude : List String := []
  /-- Whether there is a hook for the end of a check. -/
  onFinish : Bool := false
  deriving DecidableEq, Repr

namespace Config

def itemText? : Item → Option String
  | .single (.string value) => value
  | .spread (.string value) => value
  | _ => none

/-- The strings of an array; anything else has none. -/
def strings : Expr → List String
  | .array items => items.filterMap itemText?
  | _ => []

def addMember (config : Config) : Member → Config
  | .field (some "ignore") value => { config with ignore := strings value }
  | .field (some "alwaysInclude") value => { config with alwaysInclude := strings value }
  | .field (some "onFinish") _ => { config with onFinish := true }
  | .method (some "onFinish") => { config with onFinish := true }
  | _ => config

def addObject (config : Config) (members : List Member) : Config :=
  members.foldl addMember config

def exported? : Statement → Option Expr
  | .exportDefault value => some value
  | .expression (.assignment (.property (.identifier "module") "exports") value) => some value
  | _ => none

def bindingsOf : Statement → List Binding
  | .declaration bindings => bindings
  | _ => []

/-- The members of a variable of a given name that is declared as an object. -/
def objectOf? (name : String) (binding : Binding) : Option (List Member) :=
  match binding.value with
  | .object members => if binding.name == name then some members else none
  | _ => none

/-- The members of an exported value: an object, or the first variable of its name that is one. -/
def membersOf? (script : List Statement) : Expr → Option (List Member)
  | .object members => some members
  | .identifier name => (script.flatMap bindingsOf).findSome? (objectOf? name)
  | _ => none

def addStatement (script : List Statement) (config : Config) (statement : Statement) : Config :=
  match (exported? statement).bind (membersOf? script) with
  | some members => config.addObject members
  | none => config

def ofStatements (script : List Statement) : Config :=
  script.foldl (addStatement script) {}

/-- What a script configures; one that is not well-formed configures nothing. -/
def ofText (text : List Char) : Config :=
  match Script.parse? text with
  | some script => ofStatements script
  | none => {}

/-- The configuration in a file; one that is not there or not text configures nothing. -/
def load (env : Environment) (path : Path) : Config :=
  match env.readBytes path with
  | .ok content =>
      match Utf8.decode? content with
      | some text => ofText text
      | none => {}
  | .error _ => {}

end Config

end ScopedCheck

/-!
# Tokens of scripts

Names are not told apart from keywords here: a keyword is a name that is reserved
where it stands.  Binary operators are kept only as far as a reader needs them,
which is their precedence.
-/

namespace ScopedCheck

namespace Script

inductive Token where
  | endOfText
  | braceOpen
  | braceClose
  | parenOpen
  | parenClose
  | bracketOpen
  | bracketClose
  | dot
  /-- `...` -/
  | spread
  /-- `?.` -/
  | chain
  | semicolon
  | comma
  | question
  | colon
  /-- `=>` -/
  | arrow
  | bang
  | tilde
  | plus
  | minus
  | star
  /-- `**` -/
  | power
  | slash
  | increment
  | decrement
  /-- `=` -/
  | assign
  /-- An operator that assigns what it computes. -/
  | assignWith
  | operator (precedence : Nat)
  | backquote
  /-- An identifier or a keyword. -/
  | name (text : String)
  /-- A name after `#`. -/
  | privateName
  /-- A string; no value when it has lone surrogates. -/
  | string (value : Option String)
  | number
  /-- Text that is no token. -/
  | malformed
  deriving DecidableEq, Repr, Inhabited

namespace Token

def precedence? : Token → Option Nat
  | plus => some 9
  | minus => some 9
  | star => some 10
  | slash => some 10
  | power => some 11
  | operator precedence => some precedence
  | _ => none

def wordPrecedence : Nat := 7

def isOperator (token : Token) : Bool :=
  token.precedence?.isSome

/-- Whether a token can begin what a `yield` gives. -/
def opensOperand : Token → Bool
  | braceOpen | parenOpen | bracketOpen | bang | tilde | plus | minus | slash => true
  | increment | decrement | backquote | privateName | string _ | number => true
  | assignWith => true
  | name text => text != "in" && text != "instanceof"
  | _ => false

end Token

/-- Marks with their tokens; of several that begin alike the longest comes first. -/
def marks : List (List Char × Token) :=
  [(">>>=", .assignWith), ("...", .spread), ("===", .operator 6), ("!==", .operator 6),
    ("**=", .assignWith), ("<<=", .assignWith), (">>=", .assignWith), (">>>", .operator 8),
    ("&&=", .assignWith), ("||=", .assignWith), ("??=", .assignWith), ("=>", .arrow),
    ("==", .operator 6), ("!=", .operator 6), ("<=", .operator 7), (">=", .operator 7),
    ("<<", .operator 8), (">>", .operator 8), ("&&", .operator 2), ("||", .operator 1),
    ("??", .operator 1), ("**", .power), ("++", .increment), ("--", .decrement),
    ("+=", .assignWith), ("-=", .assignWith), ("*=", .assignWith), ("/=", .assignWith),
    ("%=", .assignWith), ("&=", .assignWith), ("|=", .assignWith), ("^=", .assignWith),
    ("?.", .chain), ("\x7b", .braceOpen), ("\x7d", .braceClose), ("(", .parenOpen),
    (")", .parenClose), ("[", .bracketOpen), ("]", .bracketClose), (".", .dot),
    (";", .semicolon), (",", .comma), ("?", .question), (":", .colon), ("=", .assign),
    ("!", .bang), ("~", .tilde), ("+", .plus), ("-", .minus), ("*", .star), ("/", .slash),
    ("%", .operator 10), ("<", .operator 7), (">", .operator 7), ("&", .operator 5),
    ("^", .operator 4), ("|", .operator 3), ("\x60", .backquote)].map
      fun (spelling, token) => (spelling.toList, token)

/-! ## Reserved words -/

def keywords : List String :=
  ["await", "break", "case", "catch", "class", "const", "continue", "debugger", "default",
    "delete", "do", "else", "export", "extends", "finally", "for", "function", "if", "import",
    "in", "instanceof", "let", "new", "return", "super", "switch", "this", "throw", "try",
    "typeof", "var", "void", "while", "with", "yield", "null", "true", "false"]

/-- Words that modules reserve without using them. -/
def futureWords : List String :=
  ["enum", "static", "implements", "package", "protected", "interface", "private", "public"]

def isKeyword (word : String) : Bool :=
  keywords.contains word

/-- Whether a module cannot refer to a variable of this name. -/
def isReserved (word : String) : Bool :=
  isKeyword word || futureWords.contains word

/-- Whether a declaration cannot introduce this name. -/
def isUnbindable (word : String) : Bool :=
  isKeyword word && word != "let" && word != "yield"

end Script

end ScopedCheck

/-!
# Glob patterns

A pattern is a list of tokens.  `*` and `?` also match separators; `**` is a
token of its own only where it is a whole component, and braces hold
alternatives that may nest.
-/

namespace ScopedCheck

namespace Glob

inductive Token where
  | literal (c : Char)
  /-- Any one byte. -/
  | any
  /-- Any bytes. -/
  | star
  /-- One byte that the ranges name, or one that they do not. -/
  | byteClass (negated : Bool) (ranges : List (Char × Char))
  /-- `**` before a separator, at the start. -/
  | leadingTree
  /-- `**` after a separator, at the end. -/
  | trailingTree
  /-- `**` between separators. -/
  | innerTree
  | alternates (branches : List (List Token))
  deriving Repr, Inhabited

inductive PatternError where
  | unclosedClass
  | invalidRange (low high : Char)
  | unclosedAlternates
  | unopenedAlternates
  | danglingEscape
  deriving DecidableEq, Repr

def PatternError.message : PatternError → String
  | unclosedClass => "unclosed character class; missing ']'"
  | invalidRange low high =>
      "invalid range; '" ++ low.toString ++ "' > '" ++ high.toString ++ "'"
  | unclosedAlternates =>
      "unclosed alternate group; missing '\x7d' (maybe escape '\x7b' with '[\x7b]'?)"
  | unopenedAlternates =>
      "unopened alternate group; missing '\x7b' (maybe escape '\x7d' with '[\x7d]'?)"
  | danglingEscape => "dangling '\\'"

/-- The last range, stretched to a new upper end. -/
def stretchLast (c : Char) : List (Char × Char) → Except PatternError (List (Char × Char))
  | [] => .ok [(c, c)]
  | (low, _) :: ranges => if c < low then .error (.invalidRange low c) else .ok ((low, c) :: ranges)

/--
Reads the ranges of a class up to its closing bracket, the latest range first.

A bracket that comes first is a member; a dash stands for itself first, last,
and as the upper end of a range.
-/
def classRanges (first inRange : Bool) (ranges : List (Char × Char)) :
    List Char → Except PatternError (List (Char × Char) × List Char)
  | [] => .error .unclosedClass
  | c :: rest =>
      if c = ']' && !first then .ok (if inRange then ('-', '-') :: ranges else ranges, rest)
      else if c = '-' && !first && !inRange then classRanges false true ranges rest
      else if inRange then
        match stretchLast c ranges with
        | .ok ranges => classRanges false false ranges rest
        | .error cause => .error cause
      else classRanges false false ((c, c) :: ranges) rest

def classToken (text : List Char) : Except PatternError (Token × List Char) :=
  let negated := text.head? == some '!' || text.head? == some '^'
  (classRanges true false [] (if negated then text.drop 1 else text)).map
    fun (ranges, rest) => (.byteClass negated ranges.reverse, rest)

structure Scan where
  /-- Tokens of the current branch, the latest first. -/
  current : List Token
  /-- For every open group, the innermost first: its finished branches and the tokens before it. -/
  groups : List (List (List Token) × List Token)
  last : Option Char

namespace Scan

def push (scan : Scan) (token : Token) : Scan :=
  { scan with current := token :: scan.current }

def inGroup (scan : Scan) : Bool :=
  !scan.groups.isEmpty

/-- Replaces the latest token by the tree that a whole-component `**` makes of it. -/
def pushTree (scan : Scan) (atEnd : Bool) : Scan :=
  { scan with
    current := match scan.current with
      | .leadingTree :: rest => .leadingTree :: rest
      | .trailingTree :: rest => .trailingTree :: rest
      | _ :: rest => (if atEnd then .trailingTree else .innerTree) :: rest
      | [] => [] }

/-- Reads what follows two stars; gives the scan and the rest of the text. -/
def doubleStar (scan : Scan) (text : List Char) : Scan × List Char :=
  let plain := ({ (scan.push .star).push .star with last := some '*' }, text)
  if scan.current.isEmpty then
    match text with
    | [] => (scan.push .leadingTree, [])
    | '/' :: rest => ({ scan.push .leadingTree with last := some '/' }, rest)
    | _ => plain
  else if scan.last ≠ some '/' &&
      (!scan.inGroup || (scan.last ≠ some ',' && scan.last ≠ some '{')) then plain
  else
    match text with
    | [] => (scan.pushTree true, [])
    | '/' :: rest => ({ scan.pushTree false with last := some '/' }, rest)
    | c :: _ =>
        if scan.inGroup && (c == ',' || c == '}') then
          ({ scan.pushTree true with last := some '*' }, text)
        else plain

end Scan

/-- Reads the tokens of a text of at most `fuel` characters. -/
def scanTokens : Nat → Scan → List Char → Except PatternError (List Token)
  | 0, scan, _ => .ok scan.current.reverse
  | _ + 1, scan, [] =>
      if scan.inGroup then .error .unclosedAlternates else .ok scan.current.reverse
  | fuel + 1, scan, c :: rest =>
      let next := { scan with last := some c }
      match c with
      | '?' => scanTokens fuel (next.push .any) rest
      | '*' =>
          match rest with
          | '*' :: rest =>
              let (scan, rest) := scan.doubleStar rest
              scanTokens fuel scan rest
          | _ => scanTokens fuel (next.push .star) rest
      | '[' =>
          match classToken rest with
          | .ok (token, rest) => scanTokens fuel { scan.push token with last := some ']' } rest
          | .error cause => .error cause
      | '{' =>
          scanTokens fuel { next with current := [], groups := ([], scan.current) :: scan.groups }
            rest
      | '}' =>
          match scan.groups with
          | [] => .error .unopenedAlternates
          | (branches, before) :: groups =>
              let branches := (scan.current.reverse :: branches).reverse
              scanTokens fuel { next with current := .alternates branches :: before, groups } rest
      | ',' =>
          match scan.groups with
          | [] => scanTokens fuel (next.push (.literal ',')) rest
          | (branches, before) :: groups =>
              scanTokens fuel { next with
                current := []
                groups := (scan.current.reverse :: branches, before) :: groups } rest
      | '\\' =>
          match rest with
          | [] => .error .danglingEscape
          | escaped :: rest =>
              scanTokens fuel { scan.push (.literal escaped) with last := some escaped } rest
      | c => scanTokens fuel (next.push (.literal c)) rest

def tokens (pattern : List Char) : Except PatternError (List Token) :=
  scanTokens (pattern.length + 1) ⟨[], [], none⟩ pattern

end Glob

end ScopedCheck

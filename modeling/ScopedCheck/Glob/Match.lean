import ScopedCheck.Glob.Pattern
import ScopedCheck.Text.Utf8

/-!
# Matching globs

A pattern matches whole texts, byte by byte.  `ends` tables tell for each suffix
of the text whether what follows in the pattern matches it; every token turns
the table of what follows into its own.
-/

namespace ScopedCheck

namespace Glob

/-- For each suffix of a text, the longest first, whether it is an end. -/
abbrev Ends := List Bool

/-- The table in which only the empty suffix is an end. -/
def atEnd : List UInt8 → Ends
  | [] => [true]
  | _ :: rest => false :: atEnd rest

/-- Suffixes that begin with a byte of a set and continue with an end. -/
def oneByte (holds : UInt8 → Bool) : List UInt8 → Ends → Ends
  | b :: rest, _ :: ends => (holds b && ends.headD false) :: oneByte holds rest ends
  | _, _ => [false]

/-- Suffixes that have an end among their own suffixes. -/
def anyBytes : Ends → Ends
  | [] => []
  | found :: ends =>
      let later := anyBytes ends
      (found || later.headD false) :: later

def either : Ends → Ends → Ends :=
  List.zipWith (· || ·)

def noEnds (ends : Ends) : Ends :=
  ends.map fun _ => false

/-- Suffixes that begin with a separator and continue with an end. -/
def slash (text : List UInt8) (ends : Ends) : Ends :=
  oneByte (· == 0x2F) text ends

/-- Whether one range of a class names a byte; characters stand for their bytes. -/
def inRange (b : UInt8) (range : Char × Char) : Bool :=
  let low := String.utf8EncodeChar range.1
  let high := String.utf8EncodeChar range.2
  if range.1 = range.2 then low.contains b
  else low.dropLast.contains b || high.tail.contains b ||
    (low.getLastD 0 ≤ b && b ≤ high.headD 0)

/-- The bytes that a class matches. -/
def inClass (negated : Bool) (ranges : List (Char × Char)) (b : UInt8) : Bool :=
  ranges.any (inRange b) != negated

mutual

/-- Whether a token stands for nothing at all: a group without any alternative left. -/
def Token.isVoid : Token → Bool
  | .alternates branches => areVoid branches
  | _ => false

def isVoid : List Token → Bool
  | [] => true
  | token :: rest => token.isVoid && isVoid rest

def areVoid : List (List Token) → Bool
  | [] => true
  | branch :: rest => isVoid branch && areVoid rest

end

mutual

/-- The table of a token from the table of what follows it. -/
def Token.ends (text : List UInt8) (follow : Ends) : Token → Ends
  | .literal c =>
      (String.utf8EncodeChar c).foldr (fun b ends => oneByte (· == b) text ends) follow
  | .any => oneByte (fun _ => true) text follow
  | .star => anyBytes follow
  | .byteClass negated ranges => oneByte (inClass negated ranges) text follow
  | .leadingTree => either follow (anyBytes (slash text follow))
  | .trailingTree => slash text (anyBytes follow)
  | .innerTree =>
      either (slash text follow) (slash text (anyBytes (slash text follow)))
  | .alternates branches => if areVoid branches then follow else branchEnds text follow branches

def sequenceEnds (text : List UInt8) (follow : Ends) : List Token → Ends
  | [] => follow
  | token :: rest => token.ends text (sequenceEnds text follow rest)

/-- The table of alternatives; those that stand for nothing are left out. -/
def branchEnds (text : List UInt8) (follow : Ends) : List (List Token) → Ends
  | [] => noEnds follow
  | branch :: rest =>
      if isVoid branch then branchEnds text follow rest
      else either (sequenceEnds text follow branch) (branchEnds text follow rest)

end

/-- Whether a pattern matches a whole text; a lone `**` matches every text. -/
def isMatch (tokens : List Token) (text : List UInt8) : Bool :=
  match tokens with
  | [.leadingTree] => true
  | _ => (sequenceEnds text (atEnd text) tokens).headD false

end Glob

end ScopedCheck

import ScopedCheck.Json.Value

/-!
# Reading JSON text

A reader takes something off the front of a text.  It fails because the text is
not JSON, or because the JSON so far is not of the shape that it wants; which of
the two is met first in the text decides.

The grammar is strict: no comments, no trailing commas, no lone surrogate
escapes, and no number beyond the binary64 range.  `value depth` allows `depth`
arrays and objects inside one another.
-/

namespace ScopedCheck

namespace Json

inductive Fault (σ : Type) where
  /-- The text is not JSON. -/
  | malformed
  /-- The JSON is of another shape than the wanted one. -/
  | mismatch (cause : σ)
  deriving Repr

/-- Takes something off the front of a text. -/
abbrev Reader (σ : Type) := StateT (List Char) (Except (Fault σ))

variable {σ α β : Type}

def malformed : Reader σ α :=
  throw .malformed

def mismatch (cause : σ) : Reader σ α :=
  throw (.mismatch cause)

def isSpace (c : Char) : Bool :=
  c == ' ' || c == '\t' || c == '\n' || c == '\r'

/-- Skips white space and shows the next character. -/
def next? : Reader σ (Option Char) := do
  let text := (← get).dropWhile isSpace
  set text
  return text.head?

def advance : Reader σ Unit :=
  modify (·.drop 1)

/-! ## Numbers -/

def maxInteger : Nat := 0xFFFFFFFFFFFFFFFF

/-- The magnitude of the least integer of 64 bits with a sign. -/
def maxNegated : Nat := 0x8000000000000000

def digitValue (c : Char) : Nat :=
  c.toNat - '0'.toNat

def startsWithDigit : List Char → Bool
  | c :: _ => c.isDigit
  | [] => false

/--
Takes digits while the number they extend fits in 64 bits.

Gives that number, how many digits were taken, and the text from the first
character on that was not.
-/
def takeDigits : Nat → List Char → Nat × Nat × List Char
  | n, [] => (n, 0, [])
  | n, c :: rest =>
      let extended := n * 10 + digitValue c
      if c.isDigit && extended ≤ maxInteger then
        let (found, count, rest) := takeDigits extended rest
        (found, count + 1, rest)
      else (n, 0, c :: rest)

/-- A scaled significand as a number; malformed beyond the binary64 range. -/
def scaled (negative : Bool) (significand : Nat) (exponent : Int) : Reader σ Number :=
  match Binary64.scale? negative significand exponent with
  | some x => return .float x
  | none => malformed

def exponentSign : List Char → Bool × List Char
  | '+' :: rest => (false, rest)
  | '-' :: rest => (true, rest)
  | text => (false, text)

def exponentPart (negative : Bool) (significand : Nat) (exponent : Int) : Reader σ Number := do
  let (down, text) := exponentSign (← get)
  let digits := text.takeWhile Char.isDigit
  if digits.isEmpty then malformed
  set (text.dropWhile Char.isDigit)
  let power := digits.foldl (fun n c => n * 10 + digitValue c) 0
  scaled negative significand (if down then exponent - power else exponent + power)

/-- Reads an optional exponent after a significand with a decimal point. -/
def optionalExponent (negative : Bool) (significand : Nat) (exponent : Int) :
    Reader σ Number := do
  match ← get with
  | 'e' :: rest => set rest; exponentPart negative significand exponent
  | 'E' :: rest => set rest; exponentPart negative significand exponent
  | _ => scaled negative significand exponent

/-- Reads the digits after a decimal point; those that no longer fit are dropped. -/
def fractionPart (negative : Bool) (significand : Nat) (exponent : Int) : Reader σ Number := do
  let (extended, count, rest) := takeDigits significand (← get)
  if startsWithDigit rest then
    set (rest.dropWhile Char.isDigit)
  else if count = 0 then malformed
  else set rest
  optionalExponent negative extended (exponent - count)

def integer (negative : Bool) (n : Nat) : Reader σ Number :=
  if !negative then return .int n
  else if 0 < n && n ≤ maxNegated then return .int (-n)
  else scaled true n 0

def afterInteger (negative : Bool) (n : Nat) (dropped : Nat) : Reader σ Number := do
  match ← get with
  | '.' :: rest => set rest; fractionPart negative n dropped
  | 'e' :: rest => set rest; exponentPart negative n dropped
  | 'E' :: rest => set rest; exponentPart negative n dropped
  | _ => if dropped = 0 then integer negative n else scaled negative n dropped

def number : Reader σ Number := do
  let text ← get
  let negative := text.head? == some '-'
  match if negative then text.drop 1 else text with
  | '0' :: rest =>
      if startsWithDigit rest then malformed
      set rest
      afterInteger negative 0 0
  | c :: rest =>
      if !c.isDigit then malformed
      let (n, _, rest) := takeDigits (digitValue c) rest
      let dropped := rest.takeWhile Char.isDigit
      set (rest.dropWhile Char.isDigit)
      afterInteger negative n dropped.length
  | [] => malformed

/-! ## Strings -/

def hexValue? (c : Char) : Option Nat :=
  if c.isDigit then some (c.toNat - '0'.toNat)
  else if 'a' ≤ c && c ≤ 'f' then some (c.toNat - 'a'.toNat + 10)
  else if 'A' ≤ c && c ≤ 'F' then some (c.toNat - 'A'.toNat + 10)
  else none

/-- Four hexadecimal digits and the text after them. -/
def hex4? : List Char → Option (Nat × List Char)
  | a :: b :: c :: d :: rest => do
      let n := ((← hexValue? a) * 16 + (← hexValue? b)) * 16 + (← hexValue? c)
      return (n * 16 + (← hexValue? d), rest)
  | _ => none

def shortEscape? : Char → Option Char
  | '"' => some '"'
  | '\\' => some '\\'
  | '/' => some '/'
  | 'b' => some '\x08'
  | 'f' => some '\x0C'
  | 'n' => some '\n'
  | 'r' => some '\r'
  | 't' => some '\t'
  | _ => none

def joinSurrogates (high low : Nat) : Char :=
  Char.ofNat (0x10000 + (high - 0xD800) * 0x400 + (low - 0xDC00))

/-- The character of a numbered escape, its `\u` taken away; surrogates must come in pairs. -/
def unicodeEscape? (text : List Char) : Option (Char × List Char) := do
  let (n, rest) ← hex4? text
  if 0xDC00 ≤ n && n ≤ 0xDFFF then none
  if 0xD800 ≤ n && n ≤ 0xDBFF then
    match rest with
    | '\\' :: 'u' :: rest =>
        let (low, rest) ← hex4? rest
        if 0xDC00 ≤ low && low ≤ 0xDFFF then return (joinSurrogates n low, rest) else none
    | _ => none
  else return (Char.ofNat n, rest)

/-- The character of an escape, its backslash taken away. -/
def escape? : List Char → Option (Char × List Char)
  | 'u' :: rest => unicodeEscape? rest
  | c :: rest => (shortEscape? c).map (·, rest)
  | [] => none

/-- The content of a string up to its closing quote, and the text after that. -/
def stringBody? : Nat → List Char → Option (List Char × List Char)
  | 0, _ => none
  | _ + 1, [] => none
  | fuel + 1, c :: rest =>
      if c = '"' then some ([], rest)
      else if c = '\\' then do
        let (escaped, rest) ← escape? rest
        let (body, rest) ← stringBody? fuel rest
        return (escaped :: body, rest)
      else if c.toNat < 0x20 then none
      else do
        let (body, rest) ← stringBody? fuel rest
        return (c :: body, rest)

/-- Reads a string, its opening quote included. -/
def string : Reader σ String := do
  let text := (← get).drop 1
  match stringBody? (text.length + 1) text with
  | some (body, rest) => set rest; return String.ofList body
  | none => malformed

/-! ## Values -/

def literal (letters : List Char) : Reader σ Unit := do
  let text ← get
  if letters.isPrefixOf text then set (text.drop letters.length) else malformed

/-- Reads a value that is no container; an opening bracket is left to `container`. -/
def scalarOr (container : Char → Reader σ Value) : Reader σ Value := do
  match ← next? with
  | none => malformed
  | some '"' => return .string (← string)
  | some 'n' => literal ['n', 'u', 'l', 'l']; return .null
  | some 't' => literal ['t', 'r', 'u', 'e']; return .bool true
  | some 'f' => literal ['f', 'a', 'l', 's', 'e']; return .bool false
  | some '[' => container '['
  | some '{' => container '{'
  | some c => if c = '-' || c.isDigit then return .number (← number) else malformed

def more (close : Char) (first : Bool) : Reader σ Bool := do
  match ← next? with
  | none => malformed
  | some c =>
      if c = close then return false
      if first then return true
      if c ≠ ',' then malformed
      advance
      match ← next? with
      | none => malformed
      | some c => if c = close then malformed else return true

/-- Folds a reader over the items up to a closing bracket, which stays. -/
def foldItems (close : Char) (step : β → Reader σ β) : Nat → Bool → β → Reader σ β
  | 0, _, _ => malformed
  | fuel + 1, first, state => do
      if ← more close first then foldItems close step fuel false (← step state)
      else return state

/-- Folds a reader over the items of a container, brackets included. -/
def foldContainer (close : Char) (step : β → Reader σ β) (start : β) : Reader σ β := do
  advance
  let found ← foldItems close step ((← get).length + 1) true start
  advance
  return found

def arrayOf (item : Reader σ α) : Reader σ (List α) := do
  return (← foldContainer ']' (fun found => return (← item) :: found) []).reverse

def name : Reader σ String := do
  if (← next?) ≠ some '"' then malformed
  string

def colon : Reader σ Unit := do
  if (← next?) ≠ some ':' then malformed
  advance

def memberName : Reader σ String := do
  let found ← name
  colon
  return found

/-- Reads an array or an object whose contents one reader reads. -/
def containerOf (item : Reader σ Value) (opening : Char) : Reader σ Value := do
  if opening = '[' then return .array (← arrayOf item)
  else
    let step (found : List (String × Value)) : Reader σ (List (String × Value)) := do
      let name ← memberName
      return (name, ← item) :: found
    return .object (← foldContainer '}' step []).reverse

/-- Reads a value with at most `depth` containers inside one another. -/
def value : Nat → Reader σ Value
  | 0 => scalarOr fun _ => malformed
  | depth + 1 => scalarOr (containerOf (value depth))

/-- Reads a scalar whole and of a container only the kind. -/
def shallow : Reader σ Value :=
  scalarOr fun opening => return if opening = '[' then .array [] else .object []

/-! ## Values whose content does not matter -/

/-- Skips a string body; surrogate escapes need not come in pairs. -/
def skipString? : Nat → List Char → Option (List Char)
  | 0, _ => none
  | _ + 1, [] => none
  | fuel + 1, c :: rest =>
      if c = '"' then some rest
      else if c = '\\' then
        match rest with
        | 'u' :: rest => (hex4? rest).bind fun (_, rest) => skipString? fuel rest
        | e :: rest => (shortEscape? e).bind fun _ => skipString? fuel rest
        | [] => none
      else if c.toNat < 0x20 then none
      else skipString? fuel rest

/-- Skips a string, its opening quote included. -/
def skipString : Reader σ Unit := do
  let text := (← get).drop 1
  match skipString? (text.length + 1) text with
  | some rest => set rest
  | none => malformed

def skipDigits : Reader σ Unit := do
  if !startsWithDigit (← get) then malformed
  modify (·.dropWhile Char.isDigit)

def skipExponent : Reader σ Unit := do
  match ← get with
  | 'e' :: rest => set (exponentSign rest).2; skipDigits
  | 'E' :: rest => set (exponentSign rest).2; skipDigits
  | _ => return

def skipNumber : Reader σ Unit := do
  let text ← get
  match if text.head? == some '-' then text.drop 1 else text with
  | '0' :: rest => if startsWithDigit rest then malformed else set rest
  | rest => set rest; skipDigits
  match ← get with
  | '.' :: rest => set rest; skipDigits; skipExponent
  | _ => skipExponent

/-- Skips a value with at most `depth` containers inside one another. -/
def skipValue : Nat → Reader σ Unit
  | 0 => malformed
  | depth + 1 => do
      match ← next? with
      | none => malformed
      | some '"' => skipString
      | some 'n' => literal ['n', 'u', 'l', 'l']
      | some 't' => literal ['t', 'r', 'u', 'e']
      | some 'f' => literal ['f', 'a', 'l', 's', 'e']
      | some '[' => foldContainer ']' (fun _ => skipValue depth) ()
      | some '{' =>
          foldContainer '}' (fun _ => do
            if (← next?) ≠ some '"' then malformed
            skipString
            colon
            skipValue depth) ()
      | some c => if c = '-' || c.isDigit then skipNumber else malformed

def skip : Reader σ Unit := do
  skipValue ((← get).length + 1)

/-! ## Documents -/

def readAll (reader : Reader σ α) (text : List Char) : Except (Fault σ) α := do
  let (found, rest) ← reader.run text
  if rest.all isSpace then return found else throw .malformed

/-- Greatest number of containers inside one another. -/
def maxDepth : Nat := 127

/-- The value of a JSON text, members as written; none when it is not JSON. -/
def parse? (text : String) : Option Value :=
  match readAll (value (σ := Empty) maxDepth) text.toList with
  | .ok found => some found
  | .error _ => none

end Json

end ScopedCheck

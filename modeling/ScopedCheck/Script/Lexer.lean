import ScopedCheck.Json.Reader
import ScopedCheck.Script.Token
import ScopedCheck.Text.Identifier
import ScopedCheck.Text.Lines

/-!
# From characters to tokens

`scan` takes one token off the front of a text.  Two kinds of token depend on what
a reader is looking for: the rest of a template and a regular expression have
functions of their own.

Misspellings that leave the token's extent clear are let through: octal escapes
and digits out of place, line breaks inside strings, stray separators in numbers.
-/

namespace ScopedCheck

namespace Script

/-! ## Between tokens -/

def isLineEnd (c : Char) : Bool :=
  c == '\n' || c == '\r' || c == '\u2028' || c == '\u2029'

def isSpace (c : Char) : Bool :=
  (Text.isBlank c && c != '\x85') || c == '\uFEFF'

/-- Where a scan between tokens stands. -/
inductive Gap where
  | blanks
  | lineComment
  /-- In a comment that ends with its mark, or with the text. -/
  | blockComment

/--
Skips what separates tokens.

Also tells whether a line ended on the way, given whether one had ended before;
an arrow out of a markup comment counts as a comment only at the start of a line.
-/
def skipGap : Gap → Bool → List Char → Bool × List Char
  | _, broken, [] => (broken, [])
  | .lineComment, broken, c :: rest =>
      if isLineEnd c then skipGap .blanks true rest else skipGap .lineComment broken rest
  | .blockComment, broken, '*' :: '/' :: rest => skipGap .blanks broken rest
  | .blockComment, broken, c :: rest => skipGap .blockComment (broken || isLineEnd c) rest
  | .blanks, broken, '/' :: '/' :: rest => skipGap .lineComment broken rest
  | .blanks, broken, '/' :: '*' :: rest => skipGap .blockComment broken rest
  | .blanks, broken, '<' :: '!' :: '-' :: '-' :: rest => skipGap .lineComment broken rest
  | .blanks, true, '-' :: '-' :: '>' :: rest => skipGap .lineComment true rest
  | .blanks, broken, c :: rest =>
      if isSpace c then skipGap .blanks (broken || isLineEnd c) rest else (broken, c :: rest)

/-! ## Escapes -/

inductive Escape where
  | point (value : Nat)
  /-- Nothing: a line goes on. -/
  | nothing
  /-- A code point written in a way that templates refuse. -/
  | legacy (value : Nat)
  | invalid

def octalValue? (c : Char) : Option Nat :=
  if '0' ≤ c && c ≤ '7' then some (c.toNat - '0'.toNat) else none

/-- Takes up to `count` octal digits as long as the number fits in a byte. -/
def takeOctal : Nat → Nat → List Char → Nat × List Char
  | 0, n, text => (n, text)
  | _ + 1, n, [] => (n, [])
  | count + 1, n, c :: rest =>
      match octalValue? c with
      | some digit =>
          if n * 8 + digit ≤ 0xFF then takeOctal count (n * 8 + digit) rest else (n, c :: rest)
      | none => (n, c :: rest)

def maxPoint : Nat := 0x10FFFF

/-- Reads the digits of a braced code point, up to its closing brace. -/
def bracedPoint? : Option Nat → List Char → Option (Nat × List Char)
  | some n, '}' :: rest => some (n, rest)
  | found, c :: rest =>
      match Json.hexValue? c with
      | some digit =>
          let n := found.getD 0 * 16 + digit
          if n ≤ maxPoint then bracedPoint? (some n) rest else none
      | none => none
  | _, [] => none

def unicodePoint? : List Char → Option (Nat × List Char)
  | '{' :: rest => bracedPoint? none rest
  | text => Json.hex4? text

def bytePoint? : List Char → Option (Nat × List Char)
  | high :: low :: rest =>
      match Json.hexValue? high, Json.hexValue? low with
      | some high, some low => some (high * 16 + low, rest)
      | _, _ => none
  | _ => none

def controlOf? : Char → Option Nat
  | 'n' => some 0xA
  | 'r' => some 0xD
  | 't' => some 0x9
  | 'b' => some 0x8
  | 'v' => some 0xB
  | 'f' => some 0xC
  | _ => none

/-- A code point that may be missing, as an escape. -/
def Escape.ofPoint? (text : List Char) : Option (Nat × List Char) → Escape × List Char
  | some (n, rest) => (.point n, rest)
  | none => (.invalid, text)

def escape : List Char → Escape × List Char
  | [] => (.invalid, [])
  | '\r' :: '\n' :: rest => (.nothing, rest)
  | 'x' :: rest => Escape.ofPoint? rest (bytePoint? rest)
  | 'u' :: rest => Escape.ofPoint? rest (unicodePoint? rest)
  | c :: rest =>
      if isLineEnd c then (.nothing, rest)
      else
        match controlOf? c, octalValue? c with
        | some n, _ => (.point n, rest)
        | none, some digit =>
            if digit == 0 && !(rest.head?.bind octalValue?).isSome then (.point 0, rest)
            else
              let (n, rest) := takeOctal 2 digit rest
              (.legacy n, rest)
        | none, none => (.point c.toNat, rest)

/-! ## Strings -/

def isHigh (n : Nat) : Bool :=
  0xD800 ≤ n && n ≤ 0xDBFF

def isLow (n : Nat) : Bool :=
  0xDC00 ≤ n && n ≤ 0xDFFF

def joinPairs : List Nat → List Nat
  | high :: low :: rest =>
      if isHigh high && isLow low then
        (0x10000 + (high - 0xD800) * 0x400 + (low - 0xDC00)) :: joinPairs rest
      else high :: joinPairs (low :: rest)
  | points => points

/-- The text of code points; none when a surrogate is left alone. -/
def textOfPoints? (points : List Nat) : Option String :=
  let points := joinPairs points
  if points.any fun n => isHigh n || isLow n then none
  else some (String.ofList (points.map Char.ofNat))

/--
Reads a string up to its closing quote.

A line break or the end of the text closes it as well, and then only what follows
its last escape counts.  `earlier` and `recent` hold the code points before and
after that escape, last one first.  Every step takes at least one character, and
one off a list that is longer than the text.
-/
def stringPoints (quote : Char) (earlier recent : List Nat) :
    List Char → List Char → Option (List Nat × List Char)
  | [], _ => none
  | _ :: _, [] => some (recent, [])
  | _ :: bound, '\\' :: rest =>
      match escape rest with
      | (.point n, rest) => stringPoints quote (n :: (recent ++ earlier)) [] bound rest
      | (.legacy n, rest) => stringPoints quote (n :: (recent ++ earlier)) [] bound rest
      | (.nothing, rest) => stringPoints quote (recent ++ earlier) [] bound rest
      | (.invalid, _) => none
  | _ :: bound, c :: rest =>
      if c = quote then some (recent ++ earlier, rest)
      else if c = '\n' || c = '\r' then some (recent, c :: rest)
      else stringPoints quote earlier (c.toNat :: recent) bound rest

def scanString (quote : Char) (text : List Char) : Token × List Char :=
  match stringPoints quote [] [] (quote :: text) text with
  | some (points, rest) => (.string (textOfPoints? points.reverse), rest)
  | none => (.malformed, text)

/-! ## Templates and regular expressions -/

inductive TemplateEnd where
  | close
  | substitution
  deriving DecidableEq, Repr

/--
Reads a template up to its end or to its next substitution.

Also tells whether all escapes on the way are valid; none for a template that is
never closed.  Every step takes at least one character, and one off a list that is
no shorter than the text.
-/
def templatePart : List Char → Bool → List Char → Option (Bool × TemplateEnd × List Char)
  | [], _, _ => none
  | _ :: _, _, [] => none
  | _ :: bound, valid, '\\' :: rest =>
      match escape rest with
      | (.point _, rest) => templatePart bound valid rest
      | (.nothing, rest) => templatePart bound valid rest
      | (.legacy _, rest) => templatePart bound false rest
      | (.invalid, rest) => templatePart bound false rest
  | _ :: _, valid, '\x60' :: rest => some (valid, .close, rest)
  | _ :: _, valid, '$' :: '{' :: rest => some (valid, .substitution, rest)
  | _ :: bound, valid, _ :: rest => templatePart bound valid rest

/-- Reads a regular expression after its first slash; a slash inside a class does not end it. -/
def regexBody? : Bool → List Char → Option (List Char)
  | _, [] => none
  | inClass, '\\' :: c :: rest => if isLineEnd c then none else regexBody? inClass rest
  | inClass, c :: rest =>
      if isLineEnd c then none
      else if c = '/' && !inClass then some rest
      else regexBody? (if c = '[' then true else if c = ']' then false else inClass) rest

def regex? : List Char → Option (List Char)
  | '/' :: rest => (regexBody? false rest).map (·.dropWhile Text.isIdentifierPart)
  | _ => none

/-! ## Numbers -/

def isDigitOf (base : Nat) (c : Char) : Bool :=
  match Json.hexValue? c with
  | some value => value < base
  | none => false

/-- The digits and separators at the front of a text, and what follows them. -/
def spanDigits (base : Nat) (text : List Char) : List Char × List Char :=
  text.span fun c => isDigitOf base c || c == '_'

def digits? (base : Nat) (text : List Char) : Option (List Char × List Char) :=
  let (found, rest) := spanDigits base text
  if found.any (isDigitOf base) then some (found, rest) else none

/-- The rest after a number, which a name cannot follow directly. -/
def endNumber? (text : List Char) : Option (List Char) :=
  match text with
  | c :: _ => if Text.isIdentifierStart c then none else some text
  | [] => some []

def exponent? (text : List Char) : Option (List Char) :=
  match text with
  | 'e' :: rest => signedDigits? rest
  | 'E' :: rest => signedDigits? rest
  | _ => endNumber? text
where
  /-- Reads a signed number that ends the token. -/
  signedDigits? (text : List Char) : Option (List Char) := do
    let text := match text with
      | '+' :: rest => rest
      | '-' :: rest => rest
      | _ => text
    let (_, rest) ← digits? 10 text
    endNumber? rest

def fraction? : List Char → Option (List Char)
  | '.' :: rest => exponent? (spanDigits 10 rest).2
  | text => exponent? text

def based? (base : Nat) (text : List Char) : Option (List Char) := do
  let (_, rest) ← digits? base text
  match rest with
  | 'n' :: rest => return rest
  | _ => endNumber? rest

def decimal? (text : List Char) : Option (List Char) := do
  let (found, rest) ← digits? 10 text
  let leadingZero := text.head? == some '0' && found.length != 1
  let octal := leadingZero && found.all fun c => c != '8' && c != '9'
  match rest with
  | 'n' :: after => if leadingZero then none else return after
  | _ => if octal then endNumber? rest else fraction? rest

def number? : List Char → Option (List Char)
  | '0' :: 'x' :: rest => based? 16 rest
  | '0' :: 'X' :: rest => based? 16 rest
  | '0' :: 'o' :: rest => based? 8 rest
  | '0' :: 'O' :: rest => based? 8 rest
  | '0' :: 'b' :: rest => based? 2 rest
  | '0' :: 'B' :: rest => based? 2 rest
  | '.' :: rest => fraction? ('.' :: rest)
  | text => decimal? text

/-! ## Names -/

/--
The characters of a name and whether some are escaped; none for a bad escape.

`found` holds those before the text, last one first.  Every step takes at least one
character, and one off a list that is longer than the text.
-/
def nameChars : List Char → Bool → List Char → List Char → Option (List Char × Bool × List Char)
  | [], _, _, _ => none
  | _ :: bound, _, found, '\\' :: 'u' :: rest => do
      let (n, rest) ← unicodePoint? rest
      nameChars bound true (Char.ofNat n :: found) rest
  | _ :: _, _, _, '\\' :: _ => none
  | _ :: bound, escaped, found, c :: rest =>
      if Text.isIdentifierPart c then nameChars bound escaped (c :: found) rest
      else some (found.reverse, escaped, c :: rest)
  | _ :: _, escaped, found, [] => some (found.reverse, escaped, [])

/-- The token of a name; escapes cannot hide a reserved word. -/
def scanName (text : List Char) : Token × List Char :=
  match nameChars (' ' :: text) false [] text with
  | some (found, escaped, rest) =>
      let word := String.ofList found
      if escaped && isReserved word then (.malformed, text) else (.name word, rest)
  | none => (.malformed, text)

def scanPrivate (text : List Char) : Token × List Char :=
  match text with
  | c :: _ =>
      if Text.isIdentifierStart c || c == '\\' then
        match scanName text with
        | (.name _, rest) => (.privateName, rest)
        | failed => failed
      else (.malformed, text)
  | [] => (.malformed, [])

/-! ## Tokens -/

/-- The longest mark at the front of a text; `?.` is none before a digit. -/
def scanMark (text : List Char) : Token × List Char :=
  let conditional := match text with
    | '?' :: '.' :: c :: _ => c.isDigit
    | _ => false
  if conditional then (.question, text.drop 1)
  else
    match marks.find? fun (spelling, _) => spelling.isPrefixOf text with
    | some (spelling, token) => (token, text.drop spelling.length)
    | none => (.malformed, text)

/-- The token of a number, if there is one. -/
def scanNumber (text : List Char) : Token × List Char :=
  match number? text with
  | some rest => (.number, rest)
  | none => (.malformed, text)

/-- Takes one token off the front of a text that begins with no gap. -/
def scan : List Char → Token × List Char
  | [] => (.endOfText, [])
  | '"' :: rest => scanString '"' rest
  | '\x27' :: rest => scanString '\x27' rest
  | '#' :: rest => scanPrivate rest
  | '.' :: c :: rest =>
      if c.isDigit then scanNumber ('.' :: c :: rest) else scanMark ('.' :: c :: rest)
  | c :: rest =>
      if c.isDigit then scanNumber (c :: rest)
      else if Text.isIdentifierStart c || c == '\\' then scanName (c :: rest)
      else scanMark (c :: rest)

end Script

end ScopedCheck

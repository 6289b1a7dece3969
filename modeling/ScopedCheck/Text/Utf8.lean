/-!
# UTF-8

`pieces` cuts a byte sequence into characters and malformed stretches, each
stretch being the longest beginning of a character that the next byte rules
out.  A strict reader refuses any stretch, a tolerant one shows U+FFFD for it.
-/

namespace ScopedCheck

namespace Utf8

inductive State where
  /-- Between characters. -/
  | start
  /-- Inside a character: bytes still owed, bounds of the next one, bits so far. -/
  | inside (owed : Nat) (low high : UInt8) (bits : Nat)

/-- What a first byte opens: a complete character, a longer one, or nothing. -/
def opening (b : UInt8) : Option (State × Option Char) :=
  let n := b.toNat
  if n < 0x80 then some (.start, some (Char.ofNat n))
  else if 0xC2 ≤ n && n ≤ 0xDF then some (.inside 1 0x80 0xBF (n % 0x20), none)
  else if n == 0xE0 then some (.inside 2 0xA0 0xBF 0, none)
  else if n == 0xED then some (.inside 2 0x80 0x9F 0xD, none)
  else if 0xE1 ≤ n && n ≤ 0xEF then some (.inside 2 0x80 0xBF (n % 0x10), none)
  else if n == 0xF0 then some (.inside 3 0x90 0xBF 0, none)
  else if 0xF1 ≤ n && n ≤ 0xF3 then some (.inside 3 0x80 0xBF (n % 0x8), none)
  else if n == 0xF4 then some (.inside 3 0x80 0x8F 4, none)
  else none

/-- One byte between characters: the finished pieces and the state after it. -/
def begin (b : UInt8) : List (Option Char) × State :=
  match opening b with
  | some (state, some c) => ([some c], state)
  | some (state, none) => ([], state)
  | none => ([none], .start)

def step : State → UInt8 → List (Option Char) × State
  | .start, b => begin b
  | .inside owed low high bits, b =>
      if low ≤ b && b ≤ high then
        let bits := bits * 0x40 + b.toNat % 0x40
        if owed ≤ 1 then ([some (Char.ofNat bits)], .start)
        else ([], .inside (owed - 1) 0x80 0xBF bits)
      else
        let (found, state) := begin b
        (none :: found, state)

/-- The pieces of a byte sequence read from a given state. -/
def piecesFrom : State → List UInt8 → List (Option Char)
  | .start, [] => []
  | .inside .., [] => [none]
  | state, b :: rest =>
      let (found, next) := step state b
      found ++ piecesFrom next rest

/-- Characters, and `none` for each malformed stretch, in order. -/
def pieces (data : List UInt8) : List (Option Char) :=
  piecesFrom .start data

/-- Strict decoding: every piece is a character. -/
def decode? (data : List UInt8) : Option (List Char) :=
  (pieces data).mapM id

/-- Tolerant decoding: every malformed stretch reads as U+FFFD. -/
def decodeLossy (data : List UInt8) : List Char :=
  (pieces data).map (·.getD '\uFFFD')

def encode (text : List Char) : List UInt8 :=
  text.flatMap String.utf8EncodeChar

end Utf8

end ScopedCheck

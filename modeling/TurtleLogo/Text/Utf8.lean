/-!
# Text from bytes

A file is read as UTF-8. Reading stops at the first byte that cannot stand where it stands, and a text whose last
character is cut off is told apart from one with such a byte. The first two bytes of a surrogate may stand; it is its
third byte that cannot.

* `Utf8.Follow` : the bytes a begun character still owes, with the range of the next one;
* `Utf8.Decoded` : the characters of a valid text, of a text cut off at its end, or a refusal;
* `Utf8.decode` : reads bytes one at a time;
* `Utf8.encode` : the bytes of a text.
-/

namespace TurtleLogo.Text.Utf8

/-- A character that has begun: the value of the bits read, how many bytes it still owes, and the least and the
greatest value of the next of them. -/
structure Follow where
  value : Nat
  owed : Nat
  least : Nat := 0x80
  greatest : Nat := 0xBF

/-- What a sequence of bytes says. -/
inductive Decoded where
  | text (chars : List Char)
  /-- The characters before a last one that is cut off. -/
  | cutOff (chars : List Char)
  /-- A byte that cannot stand where it stands, after so many others. -/
  | invalid (before : Nat)
  deriving DecidableEq

def Decoded.cons (c : Char) : Decoded → Decoded
  | .text chars => .text (c :: chars)
  | .cutOff chars => .cutOff (c :: chars)
  | .invalid before => .invalid before

def Decoded.chars : Decoded → List Char
  | .text chars | .cutOff chars => chars
  | .invalid _ => []

def begin? (b : Nat) : Option Follow :=
  if 0xC2 ≤ b && b ≤ 0xDF then some { value := b - 0xC0, owed := 1 }
  else if b == 0xE0 then some { value := 0, owed := 2, least := 0xA0 }
  else if 0xE1 ≤ b && b ≤ 0xEF then some { value := b - 0xE0, owed := 2 }
  else if b == 0xF0 then some { value := 0, owed := 3, least := 0x90 }
  else if 0xF1 ≤ b && b ≤ 0xF3 then some { value := b - 0xF0, owed := 3 }
  else if b == 0xF4 then some { value := 4, owed := 3, greatest := 0x8F }
  else none

/-- Whether a value that owes one byte can only become a surrogate. -/
def isSurrogate (value : Nat) : Bool :=
  0xD800 ≤ value * 0x40 && value * 0x40 ≤ 0xDFFF

/-- The character that owes some bytes yet. Nothing may follow what can only become a surrogate. -/
def Follow.next (value owed : Nat) : Follow :=
  if owed == 1 && isSurrogate value then { value, owed, least := 1, greatest := 0 } else { value, owed }

/-- Reads bytes after so many others, with the character that has begun. -/
def decodeFrom : Nat → Option Follow → List UInt8 → Decoded
  | _, none, [] => .text []
  | _, some _, [] => .cutOff []
  | before, none, byte :: bytes =>
    let b := byte.toNat
    if b < 0x80 then (decodeFrom (before + 1) none bytes).cons (Char.ofNat b)
    else
      match begin? b with
      | some follow => decodeFrom (before + 1) (some follow) bytes
      | none => .invalid before
  | before, some follow, byte :: bytes =>
    let b := byte.toNat
    if follow.least ≤ b && b ≤ follow.greatest then
      let value := follow.value * 0x40 + (b - 0x80)
      match follow.owed with
      | 0 | 1 => (decodeFrom (before + 1) none bytes).cons (Char.ofNat value)
      | owed + 2 => decodeFrom (before + 1) (some (.next value (owed + 1))) bytes
    else .invalid before

def decode (bytes : List UInt8) : Decoded :=
  decodeFrom 0 none bytes

def encode (s : String) : List UInt8 :=
  s.toUTF8.toList

end TurtleLogo.Text.Utf8

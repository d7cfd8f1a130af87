/-!
# White space, trimming and slices

* `isWhite` : the white space of Unicode, with the four information separators;
* `trimRight p`, `trim p` : a text without the characters of `p` at its end, or at both ends;
* `slice start stop` : the characters from one position to another, where a negative position counts from the end.
-/

namespace TurtleLogo.Text

/-- White space: tabs, line ends, separators and the blanks of every width. -/
def isWhite (c : Char) : Bool :=
  let n := c.toNat
  (0x09 ≤ n && n ≤ 0x0D) || (0x1C ≤ n && n ≤ 0x20) || n == 0x85 || n == 0xA0 || n == 0x1680 ||
    (0x2000 ≤ n && n ≤ 0x200A) || n == 0x2028 || n == 0x2029 || n == 0x202F || n == 0x205F || n == 0x3000

def isNewline (c : Char) : Bool := c == '\n'

def trimRight (p : Char → Bool) (s : String) : String :=
  String.ofList (s.toList.reverse.dropWhile p).reverse

/-- A text without the characters of `p` that begin or end it. -/
def trim (p : Char → Bool) (s : String) : String :=
  trimRight p (String.ofList (s.toList.dropWhile p))

/-- Where a position falls in a text of `length` characters: a negative one counts from the end, and one outside
the text falls on its nearer end. -/
def position (length : Nat) (i : Int) : Nat :=
  min (if i < 0 then (i + length).toNat else i.toNat) length

/-- The characters from position `start` up to position `stop`. -/
def slice (s : String) (start stop : Int) : String :=
  let chars := s.toList
  let i := position chars.length start
  let j := position chars.length stop
  String.ofList ((chars.take j).drop i)

def sliceFrom (s : String) (start : Int) : String :=
  slice s start s.length

/-- A text written `n` times; none for a negative number. -/
def times (s : String) (n : Int) : String :=
  String.join (List.replicate n.toNat s)

end TurtleLogo.Text

import TurtleLogo.Text.Printable

/-!
# Quoted text

A text between quotes, in which a backslash, the quote and every character that leaves no mark is escaped.

* `quoteOf s` : the quote to use, which is `'` unless only `"` avoids an escape;
* `quoted s` : the quoted text.
-/

namespace TurtleLogo.Text

def hexDigits (width n : Nat) : List Char :=
  let digits := Nat.toDigits 16 n
  List.replicate (width - digits.length) '0' ++ digits

/-- The quote around a text: `"` for a text that holds `'` and no `"`. -/
def quoteOf (s : List Char) : Char :=
  if s.contains '\'' && !s.contains '"' then '"' else '\''

/-- A character as it stands between quotes `q`. -/
def escaped (q c : Char) : List Char :=
  if c = q || c = '\\' then ['\\', c]
  else if c = '\n' then ['\\', 'n']
  else if c = '\r' then ['\\', 'r']
  else if c = '\t' then ['\\', 't']
  else if isPrintable c then [c]
  else if c.toNat < 0x100 then '\\' :: 'x' :: hexDigits 2 c.toNat
  else if c.toNat < 0x10000 then '\\' :: 'u' :: hexDigits 4 c.toNat
  else '\\' :: 'U' :: hexDigits 8 c.toNat

def quoted (s : String) : String :=
  let q := quoteOf s.toList
  String.ofList (q :: s.toList.flatMap (escaped q) ++ [q])

end TurtleLogo.Text

import TurtleLogo.Number.Decimal

/-!
# Numerals

The words that are numbers: digits, digits with a point, and either with an exponent after `E`.

* `Numeral` : a numeral taken apart;
* `Numeral.read?` : recognises a numeral;
* `Numeral.decimal` : its value;
* `ofText?` : reads the wider notation of doubles, with signs, `inf` and `nan`.
-/

namespace TurtleLogo.Number

inductive Numeral where
  | integer (digits : List Char)
  /-- Digits before and after the point, and the digits of the exponent. -/
  | fractional (whole fraction exponent : List Char)
  deriving DecidableEq, Repr

/-- The digits of an exponent after its mark; no mark gives no digits. -/
def exponent? (mark : Char) : List Char → Option (List Char)
  | [] => some []
  | c :: ds => if c = mark && !ds.isEmpty && ds.all Char.isDigit then some ds else none

def Numeral.read? (mark : Char) (word : List Char) : Option Numeral :=
  let whole := word.takeWhile Char.isDigit
  match word.dropWhile Char.isDigit with
  | [] => if whole.isEmpty then none else some (.integer whole)
  | '.' :: rest =>
    let fraction := rest.takeWhile Char.isDigit
    if whole.isEmpty && fraction.isEmpty then none
    else (exponent? mark (rest.dropWhile Char.isDigit)).map (.fractional whole fraction)
  | rest => if whole.isEmpty then none else (exponent? mark rest).map (.fractional whole [])

/-- The value of a fractional numeral, whose exponent may be negated. -/
def fractionalValue (whole fraction exponent : List Char) (negated : Bool) : Decimal where
  digits := digitsValue (whole ++ fraction)
  exponent := (if negated then -(digitsValue exponent : Int) else digitsValue exponent) - fraction.length

/-- Reads a double without a sign. -/
def ofUnsigned? (s : List Char) : Option Float :=
  if s = "inf".toList || s = "infinity".toList then some infinity
  else if s = "nan".toList then some nan
  else
    let mantissa := s.takeWhile (· != 'e')
    let (negated, tail) :=
      match s.dropWhile (· != 'e') with
      | 'e' :: '-' :: ds => (true, 'e' :: ds)
      | 'e' :: '+' :: ds => (false, 'e' :: ds)
      | rest => (false, rest)
    match Numeral.read? 'e' (mantissa ++ tail) with
    | some (.integer ds) => some (ofDecimal ⟨digitsValue ds, 0⟩)
    | some (.fractional w f e) => some (ofDecimal (fractionalValue w f e negated))
    | none => none

/-- Reads a double, such as `-0.5`, `1e-20` or `inf`. -/
def ofText? (s : String) : Option Float :=
  match s.toLower.toList with
  | '-' :: rest => (ofUnsigned? rest).map (- ·)
  | '+' :: rest => ofUnsigned? rest
  | rest => ofUnsigned? rest

end TurtleLogo.Number

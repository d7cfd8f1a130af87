import TurtleLogo.Number.Decimal

/-!
# Number text

How numbers are printed. A double is written with the fewest digits that read back: positionally from `0.0001` up to
`10 ^ 16`, else with an exponent of at least two digits. Values of the language drop the fraction of a whole number.

* `Decimal.text` : a decimal in either notation;
* `floatText` : a double, whose whole numbers keep `.0`;
* `numberText` : a number as the language shows it.
-/

namespace TurtleLogo.Number

def natDigits (n : Nat) : List Char :=
  Nat.toDigits 10 n

def natText (n : Nat) : String :=
  String.ofList (natDigits n)

def intText (n : Int) : String :=
  if n < 0 then "-" ++ natText n.natAbs else natText n.natAbs

/-- The least exponent that is written positionally. -/
def leastPositional : Int := -4

/-- The least exponent above those that are written positionally. -/
def leastScientific : Int := 16

/-- Digits with the point after the first `point` of them; zeros fill what is missing on either side. -/
def positional (digits : List Char) (point : Int) : List Char :=
  if point ≤ 0 then '0' :: '.' :: List.replicate (-point).toNat '0' ++ digits
  else
    let before := point.toNat
    if digits.length ≤ before then digits ++ List.replicate (before - digits.length) '0' ++ ['.', '0']
    else digits.take before ++ '.' :: digits.drop before

/-- The sign of an exponent and its digits, at least two. -/
def exponentText (x : Int) : List Char :=
  let digits := natDigits x.natAbs
  (if x < 0 then '-' else '+') :: List.replicate (2 - digits.length) '0' ++ digits

def scientific (digits : List Char) (x : Int) : List Char :=
  let fraction := digits.drop 1
  digits.take 1 ++ (if fraction.isEmpty then [] else '.' :: fraction) ++ 'e' :: exponentText x

/-- A decimal in the notation that its magnitude calls for. -/
def Decimal.text (d : Decimal) : List Char :=
  let digits := natDigits d.digits
  let x := d.exponent + digits.length - 1
  if leastPositional ≤ x ∧ x < leastScientific then positional digits (x + 1) else scientific digits x

/-- A double, written so that it reads back. -/
def floatText (x : Float) : String :=
  match shape x with
  | .nan => "nan"
  | .infinite negative => if negative then "-inf" else "inf"
  | .finite negative m e =>
    let text := if m = 0 then ['0', '.', '0'] else (shortest m e).text
    String.ofList (if negative then '-' :: text else text)

/-- Whole numbers below this magnitude are written without a fraction. -/
def wholeLimit : Nat := tenTo 15

/-- A number as the language shows it. -/
def numberText (x : Float) : String :=
  if isInteger x && decide ((truncate x).natAbs < wholeLimit) then intText (truncate x) else floatText x

end TurtleLogo.Number

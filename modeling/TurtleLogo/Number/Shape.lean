import TurtleLogo.Number.Power

/-!
# Doubles taken apart

A finite double is a sign, a natural mantissa and a power of two. The exact operations on numbers that the
language needs are done on these parts.

* `Shape` : the parts of a double, `shape x` those of `x`;
* `pack` : the double with given parts, for values that a double can hold;
* `isInteger`, `truncate` : whether a double is a whole number, and its whole part;
* `nan`, `infinity` : the doubles that are no numbers.
-/

namespace TurtleLogo.Number

inductive Shape where
  | nan
  | infinite (negative : Bool)
  /-- The number `mantissa * 2 ^ exponent` with a sign; zero has a sign too. -/
  | finite (negative : Bool) (mantissa : Nat) (exponent : Int)
  deriving DecidableEq, Repr

def shape (x : Float) : Shape :=
  let bits := x.toBits.toNat
  let negative := decide (twoTo 63 ≤ bits)
  let field := bits / twoTo 52 % twoTo 11
  let fraction := bits % twoTo 52
  if field = 2047 then
    if fraction = 0 then .infinite negative else .nan
  else if field = 0 then .finite negative fraction (-1074)
  else .finite negative (fraction + twoTo 52) ((field : Int) - 1075)

/-- The bits of `mantissa * 2 ^ exponent` for a value that a double holds exactly. The mantissa is moved to 53
bits, or to the least exponent. -/
def packBits (mantissa : Nat) (exponent : Int) : Nat :=
  if mantissa = 0 then 0
  else
    let target := max (exponent + mantissa.log2 - 52) (-1074)
    let moved :=
      if target ≤ exponent then mantissa * twoTo (exponent - target).toNat
      else mantissa / twoTo (target - exponent).toNat
    if moved < twoTo 52 then moved
    else (target + 1075).toNat * twoTo 52 + (moved - twoTo 52)

/-- The double with a sign and the value `mantissa * 2 ^ exponent`, for a value that a double holds exactly. -/
def pack (negative : Bool) (mantissa : Nat) (exponent : Int) : Float :=
  let sign := if negative then twoTo 63 else 0
  Float.ofBits (sign + packBits mantissa exponent).toUInt64

def nan : Float := Float.ofBits 0x7FF8000000000000

def infinity : Float := Float.ofBits 0x7FF0000000000000

def isInteger (x : Float) : Bool :=
  match shape x with
  | .finite _ m e => decide (0 ≤ e) || m % twoTo (-e).toNat == 0
  | _ => false

/-- The whole part of a double, towards zero; zero for what is not a number. -/
def truncate (x : Float) : Int :=
  match shape x with
  | .finite negative m e =>
    let whole := if 0 ≤ e then m * twoTo e.toNat else m / twoTo (-e).toNat
    if negative then -(whole : Int) else whole
  | _ => 0

end TurtleLogo.Number

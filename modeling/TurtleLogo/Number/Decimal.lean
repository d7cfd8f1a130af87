import TurtleLogo.Number.Shape

/-!
# Doubles in decimal

* `Decimal` : a natural number times a power of ten;
* `shortest m e` : the decimal with the fewest digits among those that read back as the double `m * 2 ^ e`, and the
  nearest to it of these;
* `ofDecimal` : the double nearest to a decimal;
* `digitsValue` : the number that decimal digits write.
-/

namespace TurtleLogo.Number

structure Decimal where
  digits : Nat
  exponent : Int
  deriving DecidableEq, Repr

/-! ## Writing -/

/-- The reals that round to a double, in quarters of the unit `2 ^ (exponent - 2)`. An interval has its ends iff
the double's mantissa is even. -/
structure Interval where
  low : Nat
  value : Nat
  high : Nat
  closed : Bool
  exponent : Int

/-- The interval of the double `m * 2 ^ e`. Below a power of two the doubles are twice as dense. -/
def Interval.around (m : Nat) (e : Int) : Interval where
  low := 4 * m - (if m = twoTo 52 ∧ -1074 < e then 1 else 2)
  value := 4 * m
  high := 4 * m + 2
  closed := m % 2 == 0
  exponent := e - 2

/-- The unit of the interval over `10 ^ k`, as a numerator and a denominator. -/
def Interval.unit (i : Interval) (k : Int) : Nat × Nat :=
  (twoTo i.exponent.toNat * tenTo (-k).toNat, twoTo (-i.exponent).toNat * tenTo k.toNat)

/-- The multiples of `10 ^ k` seen from an interval: its ends and its value, and the distance between two multiples, all
in one unit. -/
structure Grid where
  low : Nat
  value : Nat
  high : Nat
  pitch : Nat

def Interval.grid (i : Interval) (k : Int) : Grid :=
  let (num, den) := i.unit k
  { low := i.low * num, value := i.value * num, high := i.high * num, pitch := den }

/-- Whether the `d`-th point of a grid lies in the interval. -/
def Grid.admits (g : Grid) (closed : Bool) (d : Nat) : Bool :=
  let x := d * g.pitch
  if closed then g.low ≤ x && x ≤ g.high else g.low < x && x < g.high

/-- The point of a grid in the interval that is nearest to its value, if there is one: of two equally near the even one.
If any point of the grid lies in the interval, so does one of the value's two neighbours. -/
def Grid.nearest? (g : Grid) (closed : Bool) : Option Nat :=
  let below := g.value / g.pitch
  let above := below + 1
  match g.admits closed below, g.admits closed above with
  | true, true =>
    match compare (2 * g.value) ((below + above) * g.pitch) with
    | .lt => some below
    | .eq => some (if below % 2 = 0 then below else above)
    | .gt => some above
  | true, false => some below
  | false, true => some above
  | false, false => none

/-- The first point found on the grids of `10 ^ k`, `10 ^ (k - 1)`, …. -/
def Interval.search (i : Interval) : Nat → Int → Decimal
  | 0, k => ⟨(i.grid k).value / (i.grid k).pitch, k⟩
  | n + 1, k =>
    match (i.grid k).nearest? i.closed with
    | some d => ⟨d, k⟩
    | none => i.search n (k - 1)

/-- A power of ten above `m * 2 ^ e`, and at most a thousand times as large. -/
def exponentAbove (m : Nat) (e : Int) : Int :=
  (e + m.log2) * 30103 / 100000 + 2

/-- The shortest decimal of the positive double `m * 2 ^ e`. Seventeen digits always suffice. -/
def shortest (m : Nat) (e : Int) : Decimal :=
  (Interval.around m e).search 22 (exponentAbove m e)

/-! ## Reading -/

def digitsValue (ds : List Char) : Nat :=
  ds.foldl (fun n c => 10 * n + (c.toNat - '0'.toNat)) 0

/-- The double nearest to `d.digits * 10 ^ d.exponent`: an infinity or zero beyond the range of doubles. -/
def ofDecimal (d : Decimal) : Float :=
  if d.digits = 0 then 0
  else
    let magnitude := (Nat.toDigits 10 d.digits).length + d.exponent
    if 400 < magnitude then infinity
    else if magnitude < -400 then 0
    else if 0 ≤ d.exponent then Float.ofScientific d.digits false d.exponent.toNat
    else Float.ofScientific d.digits true (-d.exponent).toNat

/-- The least integer magnitude that is beyond the doubles: it would round to `2 ^ 1024`. -/
def integerLimit : Nat := twoTo 1024 - twoTo 970

/-- The double nearest to an integer, unless that is beyond the doubles. -/
def ofInt? (n : Int) : Option Float :=
  if n.natAbs < integerLimit then some (Float.ofInt n) else none

end TurtleLogo.Number

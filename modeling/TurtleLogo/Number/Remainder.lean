import TurtleLogo.Number.Shape

/-!
# Remainders

* `remainder x y` : the exact remainder of a division whose quotient is cut towards zero, with the sign of `x`;
* `wrap x m` : the remainder moved to the sign of a positive modulus, as angles are reduced. The last step is a
  rounded addition, so a tiny negative number wraps to the modulus itself.
-/

namespace TurtleLogo.Number

/-- The remainder of `x` by `y` with the sign of `x`. Both are put over the smaller of their powers of two, where the
remainder of the mantissas is exact. -/
def remainder (x y : Float) : Float :=
  match shape x, shape y with
  | .finite negative m e, .finite _ n f =>
    if n = 0 then nan
    else
      let low := min e f
      pack negative ((m * twoTo (e - low).toNat) % (n * twoTo (f - low).toNat)) low
  | .finite _ _ _, .infinite _ => x
  | _, _ => nan

/-- `x` reduced by a positive modulus. -/
def wrap (x modulus : Float) : Float :=
  let r := remainder x modulus
  if r == 0 then 0
  else if r < 0 then r + modulus
  else r

end TurtleLogo.Number

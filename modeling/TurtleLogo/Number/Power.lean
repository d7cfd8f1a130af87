/-!
# Powers

The powers that doubles and decimals are made of.

* `twoTo n`, `tenTo n` : the powers of two and of ten.
-/

namespace TurtleLogo.Number

abbrev twoTo (n : Nat) : Nat := Nat.pow 2 n

abbrev tenTo (n : Nat) : Nat := Nat.pow 10 n

end TurtleLogo.Number

import TurtleLogo.Fault
import TurtleLogo.Number.Remainder

/-!
# Operators

* `arithmetic` : an arithmetic operator on two numbers;
* `compareValues` : a comparison of two values, as numbers if both are numbers and else as texts;
* `accumulate` : a variadic operator on any number of numbers.
-/

namespace TurtleLogo

/-- An arithmetic operator on two numbers. The remainder has the sign of the dividend, which must be finite. -/
def arithmetic (op : Operator) (left right : Float) : Except Cause Float :=
  match op with
  | .plus => .ok (left + right)
  | .minus => .ok (left - right)
  | .times => .ok (left * right)
  | .divide => if right == 0 then .error .divisionByZero else .ok (left / right)
  | _ =>
    if right == 0 then .error .divisionByZero
    else if !left.isFinite then .error (.badInput op.symbol (Number.numberText left))
    else .ok (Number.remainder left right)

def Operator.holds {α : Type} [LT α] [LE α] [BEq α] [DecidableLT α] [DecidableLE α] (op : Operator)
    (a b : α) : Bool :=
  match op with
  | .less => a < b
  | .lessEq => a ≤ b
  | .greater => b < a
  | .greaterEq => b ≤ a
  | _ => a == b

def truth (b : Bool) : Node := .word (if b then "TRUE" else "FALSE")

/-- Compares two values, which may not be lists. -/
def compareValues (op : Operator) (left right : Node) : Except Cause Node :=
  match left, right with
  | .list items, _ => .error (.badInput op.symbol (Node.list items).source)
  | _, .list items => .error (.badInput op.symbol (Node.list items).source)
  | .num a, .num b => .ok (truth (op.holds a b))
  | a, b => .ok (truth (op.holds a.display b.display))

/-- Sum or product of any number of numbers, from the left. -/
def accumulate (op : Operator) (numbers : List Float) : Float :=
  match op with
  | .plus => numbers.foldl (· + ·) 0
  | _ => numbers.foldl (· * ·) 1

end TurtleLogo

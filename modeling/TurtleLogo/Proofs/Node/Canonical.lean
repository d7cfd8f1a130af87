import TurtleLogo.Node
import TurtleLogo.Token.Lexer

/-!
# Canonical nodes

The nodes whose printed text reads back as themselves. Operators are between their operands and bind the way the tree
says without brackets of their own, calls are never a left operand, and names, words and numbers have only characters that
reading leaves alone.

* `isPlain`, `numeral` : plain characters, and what the text of a number reads as;
* `Node.level` : how tightly a node holds together in print;
* `Node.Canonical` : the canonical nodes;
* `Node.lexemes`, `Node.following` : what the printed text of a node says, and of items after the first.
-/

namespace TurtleLogo

open Lexer Number

/-- A character of names and words that reading leaves as it is: a capital, a digit, `_`, `.` or `?`. -/
def isPlain (c : Char) : Bool := c.isUpper || c.isDigit || c == '_' || c == '.' || c == '?'

def Lexeme.number? : Lexeme → Option Float
  | .integer n => ofInt? n
  | .float x => some x
  | _ => none

/-- What the text of a number reads as. -/
def numeral (x : Float) : Lexeme :=
  match bareWord (numberText x).toList with
  | .ok lexeme => lexeme
  | .error _ => .blank

namespace Node

/-- How tightly a node holds together in print: the level of its operator, or above that of every operator. -/
def level : Node → Nat
  | .binary op _ _ => op.level
  | _ => 4

def isCall : Node → Bool
  | .call _ => true
  | _ => false

def isWord : Node → Bool
  | .word _ => true
  | _ => false

/-- Whether a minus may stand directly before a node: it is a number, a variable or a group. -/
def isNegatable : Node → Bool
  | .num _ | .var _ | .group _ => true
  | _ => false

/-- The nodes whose printed text reads back as themselves. -/
inductive Canonical : Node → Prop
  /-- A number whose text is digits, with a point perhaps, that read back. -/
  | num {x : Float} (digits : (numberText x).toList.all fun c => c.isDigit || c == '.')
      (reads : (numeral x).number? = some x) : Canonical (.num x)
  | word {s : String} (plain : s.toList.all isPlain) : Canonical (.word s)
  | var {s : String} (plain : s.toList.all isPlain) : Canonical (.var s)
  /-- A name that is not written like a number. -/
  | call {s : String} (plain : s.toList.all isPlain) (nonempty : s ≠ "")
      (name : Numeral.read? 'E' s.toList = none) : Canonical (.call s)
  | neg {operand : Node} (h : Canonical operand) (negatable : operand.isNegatable) : Canonical (.neg operand)
  /-- An operator whose left operand binds at least as tightly, and whose right operand binds tighter. -/
  | binary {op : Operator} {left right : Node} (hl : Canonical left) (hr : Canonical right)
      (noCall : left.isCall = false) (left_le : op.level ≤ left.level) (lt_right : op.level < right.level) :
      Canonical (.binary op left right)
  /-- A list without words of its own: these lose their quotes in print. -/
  | list {items : List Node} (h : ∀ item ∈ items, Canonical item) (noWord : ∀ item ∈ items, item.isWord = false) :
      Canonical (.list items)
  | group {items : List Node} (h : ∀ item ∈ items, Canonical item) : Canonical (.group items)
  /-- An operator before any number of operands, alone in its brackets. -/
  | variadic {op : Operator} {operands : List Node} (h : ∀ item ∈ operands, Canonical item) (variadic : op.isVariadic) :
      Canonical (.group [.nary op operands])

mutual

/-- What the printed text of a node says. -/
def lexemes : Node → List Lexeme
  | .num x => [numeral x]
  | .word s => [.word s]
  | .list items => .opener .square :: (following items).tail ++ [.closer .square]
  | .var name => [.var name]
  | .call name => [.name name]
  | .neg operand => .op .minus :: lexemes operand
  | .binary op left right => lexemes left ++ .blank :: .op op :: .blank :: lexemes right
  | .nary op operands => .op op :: following operands
  | .group items => .opener .round :: (following items).tail ++ [.closer .round]
  | .line items => (following items).tail
  | .output value => lexemes value
  | .empty => []

/-- What the printed text of nodes says where each has a blank before it. -/
def following : List Node → List Lexeme
  | [] => []
  | item :: items => .blank :: lexemes item ++ following items

end

theorem lexemes_variadic (op : Operator) (operands : List Node) :
    (Node.group [.nary op operands]).lexemes = .opener .round :: (.op op :: following operands) ++ [.closer .round] := by
  simp only [lexemes, following, List.tail_cons, List.append_nil]

/-- Only words lose something in print without quotes. -/
theorem Canonical.text_unquoted {n : Node} (h : n.Canonical) (hw : n.isWord = false) : n.text false = n.text true := by
  cases h with
  | word _ => cases hw
  | _ => simp only [text]

end Node

theorem numeral_cases {x y : Float} (h : (numeral x).number? = some y) :
    (∃ n, numeral x = .integer n ∧ ofInt? n = some y) ∨ numeral x = .float y := by
  cases hx : numeral x with
  | integer n =>
    rw [hx] at h
    exact .inl ⟨n, rfl, h⟩
  | float z =>
    rw [hx] at h
    cases h
    exact .inr rfl
  | _ =>
    rw [hx] at h
    cases h

end TurtleLogo

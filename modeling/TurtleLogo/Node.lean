import TurtleLogo.Token

/-!
# Nodes

Programs and values are made of the same nodes: a list holds expressions that have not been evaluated, and may be run
later as the body of a loop.

* `Node` : expressions, statements and values;
* `Node.text` : a node as source text; words are shown bare or with their quote;
* `Node.display` : a node as it is printed, `Node.source` : a node as it would be typed;
* `Node.asValue` : an element of a list taken out as a value.
-/

namespace TurtleLogo

/-- An expression, statement or value. -/
inductive Node where
  | num (value : Float)
  | word (text : String)
  /-- A list in square brackets, whose items are not evaluated. -/
  | list (items : List Node)
  | var (name : String)
  /-- A call of a procedure. Its inputs are the expressions that follow it. -/
  | call (name : String)
  /-- A number with its sign changed. -/
  | neg (operand : Node)
  | binary (op : Operator) (left right : Node)
  /-- An operator with any number of operands. -/
  | nary (op : Operator) (operands : List Node)
  /-- Expressions in round brackets. -/
  | group (items : List Node)
  /-- The statements of a line. -/
  | line (items : List Node)
  /-- The value that a procedure is about to give back. -/
  | output (value : Node)
  | empty

namespace Node

mutual

/-- A node as source text. A word has its quote iff `quoted`; inside brackets of a list no word has one, inside other
nodes every word has. -/
def text (quoted : Bool) : Node → String
  | .num x => Number.numberText x
  | .word s => if quoted then "\"" ++ s else s
  | .list items => "[" ++ " ".intercalate (texts false items) ++ "]"
  | .var name => ":" ++ name
  | .call name => name
  | .neg operand => "-" ++ text true operand
  | .binary op left right => text true left ++ " " ++ op.symbol ++ " " ++ text true right
  | .nary op operands => " ".intercalate (op.symbol :: texts true operands)
  | .group items => "(" ++ " ".intercalate (texts true items) ++ ")"
  | .line items => " ".intercalate (texts true items)
  | .output value => text quoted value
  | .empty => ""

def texts (quoted : Bool) : List Node → List String
  | [] => []
  | item :: items => text quoted item :: texts quoted items

end

def display (n : Node) : String := n.text false

def source (n : Node) : String := n.text true

/-- An element of a list as a value: numbers, words and lists stay, anything else becomes a word of its text. -/
def asValue : Node → Node
  | .num x => .num x
  | .word s => .word s
  | .list items => .list items
  | n => .word n.source

end Node

end TurtleLogo

import TurtleLogo.Number.Numeral
import TurtleLogo.Number.Text
import TurtleLogo.Text.Quoted

/-!
# Tokens

A line of Logo is a list of tokens, each at the column where its first character stands. Blanks between tokens are
tokens too, since `1 - 2` is a difference and `1 -2` two expressions.

* `Operator` : the arithmetic and comparison operators, with `symbol` and `level`;
* `Bracket` : round and square brackets;
* `Lexeme` : what a token says, with its `text`;
* `Token` : a lexeme and its column.
-/

namespace TurtleLogo

inductive Operator where
  | plus
  | minus
  | times
  | divide
  | modulo
  | less
  | lessEq
  | greater
  | greaterEq
  | equal
  deriving DecidableEq, Repr

namespace Operator

def all : List Operator :=
  [.plus, .minus, .times, .divide, .modulo, .less, .lessEq, .greater, .greaterEq, .equal]

def symbol : Operator → String
  | .plus => "+"
  | .minus => "-"
  | .times => "*"
  | .divide => "/"
  | .modulo => "%"
  | .less => "<"
  | .lessEq => "<="
  | .greater => ">"
  | .greaterEq => ">="
  | .equal => "="

def ofSymbol? (s : String) : Option Operator :=
  all.find? (·.symbol == s)

def isComparison : Operator → Bool
  | .less | .lessEq | .greater | .greaterEq | .equal => true
  | _ => false

/-- How tightly an operator binds, from 1 for comparisons to 3 for products. -/
def level : Operator → Nat
  | .times | .divide | .modulo => 3
  | .plus | .minus => 2
  | _ => 1

def isVariadic : Operator → Bool
  | .plus | .times => true
  | _ => false

end Operator

inductive Bracket where
  | round
  | square
  deriving DecidableEq, Repr

def Bracket.opening : Bracket → String
  | .round => "("
  | .square => "["

def Bracket.closing : Bracket → String
  | .round => ")"
  | .square => "]"

inductive Lexeme where
  | lineEnd
  /-- A backslash at the end of the line, which goes on with the next one. -/
  | lineCont
  /-- Blanks between two tokens. -/
  | blank
  /-- The name of a procedure. -/
  | name (text : String)
  /-- A variable, written after `:`. -/
  | var (name : String)
  /-- A word, written after `"`. -/
  | word (text : String)
  | integer (value : Int)
  | float (value : Float)
  | op (operator : Operator)
  | opener (bracket : Bracket)
  | closer (bracket : Bracket)
  | leftBrace
  | rightBrace
  deriving DecidableEq

namespace Lexeme

/-- How a lexeme is shown in messages. -/
def text : Lexeme → String
  | .lineEnd => "\\n"
  | .lineCont => "\\"
  | .blank => " "
  | .name s => s
  | .var s => ":" ++ s
  | .word s => "\"" ++ s
  | .integer n => Number.intText n
  | .float x => Number.floatText x
  | .op o => o.symbol
  | .opener b => b.opening
  | .closer b => b.closing
  | .leftBrace => "\x7b"
  | .rightBrace => "\x7d"

/-- The kind of a lexeme as it is listed in a dump of tokens. -/
def kindName : Lexeme → String
  | .lineEnd => "LINE_END"
  | .lineCont => "LINE_CONT"
  | .blank => "WHITESPACE"
  | .name _ => "FUNCTION"
  | .var _ => "VAR"
  | .word _ => "WORD"
  | .integer _ => "INTEGER"
  | .float _ => "FLOAT"
  | .op .plus => "PLUS"
  | .op .minus => "MINUS"
  | .op .times => "MULTIPLY"
  | .op .divide => "DIVIDE"
  | .op .modulo => "MODULO"
  | .op .less => "LESS"
  | .op .lessEq => "LESS_EQ"
  | .op .greater => "GREATER"
  | .op .greaterEq => "GREATER_EQ"
  | .op .equal => "EQUAL"
  | .opener .round => "LPAREN"
  | .closer .round => "RPAREN"
  | .opener .square => "LBRACKET"
  | .closer .square => "RBRACKET"
  | .leftBrace => "LBRACE"
  | .rightBrace => "RBRACE"

/-- The name, text or number that a lexeme carries. -/
def value? : Lexeme → Option String
  | .name s | .var s | .word s => some s
  | .integer n => some (Number.intText n)
  | .float x => some (Number.floatText x)
  | _ => none

/-- A lexeme in a dump of tokens; names and texts are quoted. -/
def dump (k : Lexeme) : String :=
  match k with
  | .name s | .var s | .word s => "Token(" ++ k.kindName ++ ", " ++ Text.quoted s ++ ")"
  | .integer _ | .float _ => "Token(" ++ k.kindName ++ ", " ++ k.text ++ ")"
  | _ => "Token(" ++ k.kindName ++ ")"

/-- The lexeme of a given kind with the value it carries, the inverse of `kindName` and `value?`. -/
def ofKind? (kind : String) (value : Option String) : Option Lexeme :=
  match kind, value with
  | "FUNCTION", some s => some (.name s)
  | "VAR", some s => some (.var s)
  | "WORD", some s => some (.word s)
  | "INTEGER", some s => s.toInt?.map .integer
  | "FLOAT", some s => (Number.ofText? s).map .float
  | _, _ =>
    let plain := [.lineEnd, .lineCont, .blank, .opener .round, .closer .round, .opener .square, .closer .square,
      .leftBrace, .rightBrace] ++ Operator.all.map .op
    plain.find? (·.kindName == kind)

/-- Whether a lexeme separates other tokens and says nothing else. A continuation inside a line does so too. -/
def isSpace : Lexeme → Bool
  | .blank | .lineCont => true
  | _ => false

def endsLine : Lexeme → Bool
  | .lineEnd | .lineCont => true
  | _ => false

end Lexeme

/-- A lexeme at a column, which counts characters from 0. -/
structure Token where
  kind : Lexeme
  col : Nat
  deriving DecidableEq

def Token.isSpace (t : Token) : Bool := t.kind.isSpace

end TurtleLogo

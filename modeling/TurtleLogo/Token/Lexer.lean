import TurtleLogo.Number.Numeral
import TurtleLogo.Text.Upper
import TurtleLogo.Token

/-!
# From a line to its tokens

The scan goes once from left to right. Each step reads one character and some that follow it, and gives a lexeme or
nothing: blanks that begin a line and comments give nothing.

* `Misspelling` : why a line has no tokens;
* `readWord` : a run of word characters and escapes, in capitals, with the number of characters read;
* `step` : one step of the scan, `scan` all of them;
* `tokenize` : the tokens of a line. They always end in a line end or a continuation.
-/

namespace TurtleLogo

inductive Misspelling where
  /-- A character that begins no token, at a column. -/
  | strange (char : Char) (col : Nat)
  /-- A whole number with more digits than can be read. -/
  | tooManyDigits (count : Nat)
  deriving DecidableEq, Repr

namespace Lexer

def isBlank (c : Char) : Bool := c == ' ' || c == '\t'

def isWordChar (c : Char) : Bool := c.isAlphanum || c == '_' || c == '.' || c == '?'

def symbol? : Char → Option Lexeme
  | '+' => some (.op .plus)
  | '-' => some (.op .minus)
  | '*' => some (.op .times)
  | '/' => some (.op .divide)
  | '%' => some (.op .modulo)
  | '=' => some (.op .equal)
  | '(' => some (.opener .round)
  | ')' => some (.closer .round)
  | '[' => some (.opener .square)
  | ']' => some (.closer .square)
  | '\x7b' => some .leftBrace
  | '\x7d' => some .rightBrace
  | _ => none

/-- Reads word characters and escaped characters as far as they go: the word in capitals, and the number of characters
read. A backslash before a line end is left alone. -/
def readWord : List Char → List Char × Nat
  | [] => ([], 0)
  | c :: rest =>
    if c = '\\' then
      match rest with
      | [] => ([], 0)
      | d :: rest' =>
        if d = '\n' then ([], 0)
        else
          let (word, n) := readWord rest'
          (Text.upper d ++ word, n + 2)
    else if isWordChar c then
      let (word, n) := readWord rest
      (Text.upper c ++ word, n + 1)
    else ([], 0)

/-- The most digits that a whole number may have. -/
def digitLimit : Nat := 4300

/-- What a bare word is: a number if it is written like one, else a name. -/
def bareWord (word : List Char) : Except Misspelling Lexeme :=
  match Number.Numeral.read? 'E' word with
  | some (.integer ds) =>
    if digitLimit < ds.length then .error (.tooManyDigits ds.length)
    else .ok (.integer (Number.digitsValue ds))
  | some (.fractional whole fraction exponent) =>
    .ok (.float (Number.ofDecimal (Number.fractionalValue whole fraction exponent false)))
  | none => .ok (.name (String.ofList word))

/-- What a step reads: a lexeme or nothing, and the number of characters after the first. -/
structure Step where
  lexeme : Option Lexeme
  more : Nat
  deriving DecidableEq

/-- An operator that an equals sign may follow. -/
def comparison (alone withEqual : Operator) : List Char → Step
  | '=' :: _ => ⟨some (.op withEqual), 1⟩
  | _ => ⟨some (.op alone), 0⟩

/-- Whether the character after a backslash makes it a continuation. -/
def continues : List Char → Bool
  | [] => true
  | d :: _ => d == '\n'

/-- One step from the character `c` at column `col`, followed by `rest`; `fresh` says that it begins a line. -/
def step (fresh : Bool) (col : Nat) (c : Char) (rest : List Char) : Except Misspelling Step :=
  if isBlank c then
    .ok ⟨if fresh then none else some .blank, (rest.takeWhile isBlank).length⟩
  else if c = '\n' then .ok ⟨some .lineEnd, 0⟩
  else if c = '\\' && continues rest then .ok ⟨some .lineCont, min 1 rest.length⟩
  else if c = ';' then .ok ⟨none, (rest.takeWhile (· != '\n')).length⟩
  else if c = '<' then .ok (comparison .less .lessEq rest)
  else if c = '>' then .ok (comparison .greater .greaterEq rest)
  else if c = ':' then
    let (word, n) := readWord rest
    .ok ⟨some (.var (String.ofList word)), n⟩
  else if c = '"' then
    let (word, n) := readWord rest
    .ok ⟨some (.word (String.ofList word)), n⟩
  else
    match symbol? c with
    | some lexeme => .ok ⟨some lexeme, 0⟩
    | none =>
      match readWord (c :: rest) with
      | (_, 0) => .error (.strange c col)
      | (word, n + 1) => (bareWord word).map fun lexeme => ⟨some lexeme, n⟩

/-- Whether the next character begins a line. -/
def Step.endsLine (s : Step) : Bool :=
  s.lexeme.any Lexeme.endsLine

/-- The tokens from column `col` on. -/
def scan (fresh : Bool) (col : Nat) (line : List Char) : Except Misspelling (List Token) :=
  match line with
  | [] => .ok []
  | c :: rest => do
    let s ← step fresh col c rest
    let tokens ← scan s.endsLine (col + s.more + 1) (rest.drop s.more)
    return (s.lexeme.map (Token.mk · col)).toList ++ tokens
termination_by line.length
decreasing_by simp only [List.length_drop, List.length_cons]; omega

/-- Whether the last token ends the line. -/
def isClosed (tokens : List Token) : Bool :=
  tokens.getLast?.any (·.kind.endsLine)

end Lexer

/-- The tokens of a line. A line without an end gets one after its last character. -/
def tokenize (line : String) : Except Misspelling (List Token) := do
  let chars := line.toList
  let tokens ← Lexer.scan true 0 chars
  return if Lexer.isClosed tokens then tokens else tokens ++ [⟨.lineEnd, chars.length⟩]

end TurtleLogo

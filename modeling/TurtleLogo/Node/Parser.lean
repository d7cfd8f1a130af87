import TurtleLogo.Node
import TurtleLogo.Text.Message

/-!
# From tokens to nodes

A line is a sequence of expressions. An expression is a primary, or operators between primaries, where a higher
`Operator.level` binds tighter and equal levels associate to the left. Calls are primaries that never are the left
operand of an operator. A minus with blanks before it and none after it begins a new, negated expression.

Every part of the parser gives back the tokens it left, with the proof that it has read some, so that reading ends.

* `ParseError` : why tokens are no line, with its `message` and `token?`;
* `Parsed` : what was read, and the shorter rest;
* `expression`, `climb`, `primary`, `sequence` : the parts of the parser;
* `parseLine` : the expressions of a line.
-/

namespace TurtleLogo

open Text

/-- Why tokens are no line. -/
inductive ParseError where
  /-- A closing bracket on the line that nothing opened. -/
  | unmatched (closer : Token) (bracket : Bracket)
  /-- Tokens after the end of the line. -/
  | trailing (token : Token)
  /-- An operator without an operand after it. -/
  | missingOperand (op : Token)
  /-- The end of the line, or of all tokens, in place of an expression. -/
  | endOfLine (token : Option Token)
  /-- A closing bracket in place of an expression. -/
  | strayCloser (token : Token)
  /-- A brace, which begins no expression. -/
  | unsupported (token : Token)
  /-- A closing bracket of the other kind. -/
  | wrongCloser (expected : Bracket) (token : Token)
  /-- An opening bracket that is never closed. -/
  | unclosed (opener : Token) (bracket : Bracket)
  /-- A whole number beyond the range of numbers. -/
  | tooLarge (token : Token)
  deriving DecidableEq

namespace ParseError

def message : ParseError → Message
  | .unmatched t b =>
    ["unexpected '", .part t.kind.text, "' without a matching '", .part b.opening, "'"]
  | .trailing _ => ["unexpected input after the end of the line"]
  | .missingOperand t => ["'", .part t.kind.text, "' needs more inputs"]
  | .endOfLine _ => ["unexpected end of line"]
  | .strayCloser t => ["unexpected '", .part t.kind.text, "'"]
  | .unsupported t => ["'", .part t.kind.text, "' is not supported"]
  | .wrongCloser b t => ["expected '", .part b.closing, "' but got '", .part t.kind.text, "'"]
  | .unclosed t b => ["'", .part t.kind.text, "' is missing its '", .part b.closing, "'"]
  | .tooLarge _ => ["number too large"]

/-- The token that is to blame; there is none past the last token. -/
def token? : ParseError → Option Token
  | .unmatched t _ | .trailing t | .missingOperand t | .strayCloser t | .unsupported t | .wrongCloser _ t
  | .unclosed t _ | .tooLarge t => some t
  | .endOfLine t => t

/-- The column that is to blame: past the last of `tokens` it is that of the last one. -/
def col (tokens : List Token) (e : ParseError) : Nat :=
  match e.token?, tokens.getLast? with
  | some t, _ => t.col
  | none, some t => t.col
  | none, none => 0

end ParseError

namespace Parsing

/-- What was read from tokens, and the rest, which is shorter than `bound`. -/
structure Parsed (α : Type) (bound : Nat) where
  value : α
  rest : List Token
  shorter : rest.length < bound

def skipSpaces (ts : List Token) : List Token :=
  ts.dropWhile Token.isSpace

theorem length_skipSpaces_le (ts : List Token) : (skipSpaces ts).length ≤ ts.length :=
  (List.dropWhile_suffix _).length_le

theorem length_lt_of_skipSpaces {ts rest : List Token} {t : Token} (h : skipSpaces ts = t :: rest) :
    rest.length < ts.length := by
  have := length_skipSpaces_le ts
  rw [h] at this
  exact this

/-- Whether tokens begin with a space, a minus and no space: a new negated expression, not a difference. -/
def startsNegation : List Token → Bool
  | s :: m :: t :: _ => s.isSpace && m.kind == .op .minus && !t.isSpace && t.kind != .lineEnd
  | _ => false

/-- Whether nothing that could begin an operand comes first. -/
def endsOperand : List Token → Bool
  | [] => true
  | t :: _ =>
    match t.kind with
    | .lineEnd | .closer _ => true
    | _ => false

def startsCall : List Token → Bool
  | ⟨.name _, _⟩ :: _ => true
  | _ => false

/-- Whether a minus directly before these tokens changes the sign of what follows. -/
def isNegatable : List Token → Bool
  | [] => false
  | t :: _ =>
    match t.kind with
    | .integer _ | .float _ | .opener .round | .var _ => true
    | _ => false

/-- The variadic operator that comes first, and the tokens after it. -/
def variadic? : List Token → Option (Operator × List Token)
  | ⟨.op o, _⟩ :: rest => if o.isVariadic then some (o, rest) else none
  | _ => none

theorem length_lt_of_variadic? {ts rest : List Token} {o : Operator} (h : variadic? ts = some (o, rest)) :
    rest.length < ts.length := by
  unfold variadic? at h
  split at h
  · split at h
    · obtain ⟨-, rfl⟩ := Prod.mk.inj (Option.some.inj h)
      simp
    · cases h
  · cases h

mutual

/-- An expression whose operators all bind tighter than `floor`. -/
def expression (floor : Nat) (ts : List Token) : Except ParseError (Parsed Node ts.length) := do
  let first ← primary ts
  have := first.shorter
  if startsCall (skipSpaces ts) then return first
  else
    let all ← climb floor first.value first.rest
    return ⟨all.value, all.rest, by have := all.shorter; omega⟩
termination_by 3 * ts.length + 1

/-- Goes on after the operand `left` as long as an operator above `floor` follows. -/
def climb (floor : Nat) (left : Node) (ts : List Token) : Except ParseError (Parsed Node (ts.length + 1)) :=
  if startsNegation ts then .ok ⟨left, ts, by omega⟩
  else
    match h : skipSpaces ts with
    | ⟨.op o, col⟩ :: rest =>
      have := length_lt_of_skipSpaces h
      if o.level ≤ floor then
        .ok ⟨left, ⟨.op o, col⟩ :: rest, by have := length_skipSpaces_le ts; rw [h] at this; omega⟩
      else if endsOperand (skipSpaces rest) then .error (.missingOperand ⟨.op o, col⟩)
      else do
        let right ← expression o.level rest
        have := right.shorter
        let all ← climb floor (.binary o left right.value) right.rest
        return ⟨all.value, all.rest, by have := all.shorter; omega⟩
    | rest => .ok ⟨left, rest, by have := length_skipSpaces_le ts; rw [h] at this; omega⟩
termination_by 3 * ts.length

/-- A number, word, variable or call, expressions in brackets, a negation, or an operator before its operands. -/
def primary (ts : List Token) : Except ParseError (Parsed Node ts.length) :=
  match h : skipSpaces ts with
  | [] => .error (.endOfLine none)
  | t :: rest =>
    have hrest := length_lt_of_skipSpaces h
    match t.kind with
    | .lineEnd => .error (.endOfLine (some t))
    | .integer n =>
      match Number.ofInt? n with
      | some x => .ok ⟨.num x, rest, hrest⟩
      | none => .error (.tooLarge t)
    | .float x => .ok ⟨.num x, rest, hrest⟩
    | .var name => .ok ⟨.var name, rest, hrest⟩
    | .word text => .ok ⟨.word text, rest, hrest⟩
    | .name name => .ok ⟨.call name, rest, hrest⟩
    | .opener .round =>
      match hv : variadic? (skipSpaces rest) with
      | some (o, operands) => do
        have := length_lt_of_variadic? hv
        have := length_skipSpaces_le rest
        let items ← sequence t .round operands
        return ⟨.group [.nary o items.value], items.rest, by have := items.shorter; omega⟩
      | none => do
        let items ← sequence t .round rest
        return ⟨.group items.value, items.rest, by have := items.shorter; omega⟩
    | .opener .square => do
      let items ← sequence t .square rest
      return ⟨.list items.value, items.rest, by have := items.shorter; omega⟩
    | .op o =>
      if o = .minus ∧ isNegatable rest then do
        let operand ← primary rest
        return ⟨.neg operand.value, operand.rest, by have := operand.shorter; omega⟩
      else if endsOperand (skipSpaces rest) then .error (.missingOperand t)
      else do
        let left ← expression 0 rest
        have := left.shorter
        if endsOperand (skipSpaces left.rest) then .error (.missingOperand t)
        else
          let right ← expression 0 left.rest
          return ⟨.binary o left.value right.value, right.rest, by have := right.shorter; omega⟩
    | .closer _ => .error (.strayCloser t)
    | .leftBrace | .rightBrace | .blank | .lineCont => .error (.unsupported t)
termination_by 3 * ts.length

/-- Expressions up to the bracket that closes `opener`, which is read too. -/
def sequence (opener : Token) (bracket : Bracket) (ts : List Token) :
    Except ParseError (Parsed (List Node) ts.length) :=
  match h : skipSpaces ts with
  | [] => .error (.unclosed opener bracket)
  | t :: rest =>
    have hrest := length_lt_of_skipSpaces h
    match t.kind with
    | .closer b => if b = bracket then .ok ⟨[], rest, hrest⟩ else .error (.wrongCloser bracket t)
    | .lineEnd => .error (.unclosed opener bracket)
    | _ => do
      let item ← expression 0 ts
      have := item.shorter
      let items ← sequence opener bracket item.rest
      return ⟨item.value :: items.value, items.rest, by have := items.shorter; omega⟩
termination_by 3 * ts.length + 2

end

end Parsing

open Parsing in
/-- The expressions of a line, up to its end or the last token. Only spaces may follow the end. -/
def parseLine (ts : List Token) : Except ParseError (List Node) :=
  match skipSpaces ts with
  | [] => .ok []
  | t :: rest =>
    match t.kind with
    | .lineEnd =>
      match skipSpaces rest with
      | [] => .ok []
      | u :: _ => .error (.trailing u)
    | .closer b => .error (.unmatched t b)
    | _ => do
      let item ← expression 0 ts
      have := item.shorter
      let items ← parseLine item.rest
      return item.value :: items
termination_by ts.length

end TurtleLogo

import TurtleLogo.Eval.Exec

/-!
# Inputs and sequences

A procedure's inputs are the expressions that follow its call, taken one at a time off the innermost queue and evaluated
as they are taken.

* `expectValue`, `expectNumber`, `expectWord`, `expectList` : a result as an input of the kind required;
* `pullValue`, `pullNumber`, `pullWord`, `pullList` : the next input;
* `evalLine`, `evalGroup`, `runBlock`, `evalOperands` : the four ways to evaluate a sequence of expressions.
-/

namespace TurtleLogo

open Exec

/-! ## Inputs -/

/-- A result that must be a value, as an input of `caller`; `node` is what gave it. -/
def expectValue (caller : String) (node : Node) : Result → Exec Node
  | some (.output _) | none => fail (.noOutput node.source caller)
  | some v => pure v

def expectNumber (caller : String) : Node → Exec Float
  | .num x => pure x
  | v => fail (.badInput caller v.source)

def expectWord (caller : String) : Node → Exec String
  | .word s => pure s
  | v => fail (.badInput caller v.source)

def expectList (caller : String) : Node → Exec (List Node)
  | .list items => pure items
  | v => fail (.badInput caller v.source)

def valueOf (ev : Evaluator) (caller : String) (node : Node) : Exec Node := do
  expectValue caller node (← ev node)

def numberOf (ev : Evaluator) (caller : String) (node : Node) : Exec Float := do
  expectNumber caller (← valueOf ev caller node)

def pullValue (ev : Evaluator) (caller : String) : Exec Node := do
  if (← get).pending.isEmpty then fail .noLine
  else
    match ← next? with
    | none => fail (.moreInputs caller)
    | some node => valueOf ev caller node

def pullNumber (ev : Evaluator) (caller : String) : Exec Float := do
  expectNumber caller (← pullValue ev caller)

def pullWord (ev : Evaluator) (caller : String) : Exec String := do
  expectWord caller (← pullValue ev caller)

def pullList (ev : Evaluator) (caller : String) : Exec (List Node) := do
  expectList caller (← pullValue ev caller)

/-! ## Sequences -/

/-- Evaluates statements off the innermost queue, at most `n`, until one gives something. -/
def statements (ev : Evaluator) : Nat → Exec Result
  | 0 => pure none
  | n + 1 => do
    match ← next? with
    | none => pure none
    | some node =>
      match ← ev node with
      | none => statements ev n
      | some r => pure (some r)

/-- Evaluates a line. A value may only come last, since nothing can use it. -/
def evalLine (ev : Evaluator) (items : List Node) : Exec Result :=
  withQueue items do
    match ← statements ev items.length with
    | none => pure none
    | some (.output v) => pure (some (.output v))
    | some v => if ← isMore then fail (.unusedValue v.source) else pure (some v)

/-- Evaluates the first of the expressions in brackets, which may take its inputs from the others. What is left over is
dropped. -/
def evalGroup (ev : Evaluator) (items : List Node) : Exec Result :=
  withQueue items do
    match ← next? with
    | none => pure none
    | some node => ev node

/-- Evaluates instructions off the innermost queue, at most `n`, none of which may give a value. -/
def instructions (ev : Evaluator) : Nat → Exec Result
  | 0 => pure none
  | n + 1 => do
    match ← next? with
    | none => pure none
    | some node =>
      match ← ev node with
      | none => instructions ev n
      | some (.output v) => pure (some (.output v))
      | some v => fail (.unusedValue v.source)

/-- Runs a list as the body of a loop. -/
def runBlock (ev : Evaluator) (items : List Node) : Exec Result :=
  withQueue items (instructions ev items.length)

def operands (ev : Evaluator) (caller : String) : Nat → Exec (List Float)
  | 0 => pure []
  | n + 1 => do
    match ← next? with
    | none => pure []
    | some node =>
      let x ← numberOf ev caller node
      let xs ← operands ev caller n
      pure (x :: xs)

/-- Evaluates the operands of a variadic operator. -/
def evalOperands (ev : Evaluator) (caller : String) (items : List Node) : Exec (List Float) :=
  withQueue items (operands ev caller items.length)

end TurtleLogo

import TurtleLogo.Eval.Arithmetic
import TurtleLogo.Eval.Primitive

/-!
# Evaluation

Evaluating a node gives nothing, a value, or an output that ends the running procedure. One step of the evaluator is
written in terms of the evaluator for the nodes inside; `eval` ties the knot with a bound on the nesting.

* `lookup`, `callProcedure`, `call` : variables and procedures;
* `evaluate` : one node, given the evaluator for others;
* `eval` : any node, with at most `depth` nested evaluations;
* `feedLine`, `loadFile` : a line or a file, in a workspace.
-/

namespace TurtleLogo

open Exec

/-! ## Variables and procedures -/

def lookup (name : String) : Exec Node := do
  match (← get).lookup? name with
  | some v => pure v
  | none => fail (.unknownVariable name)

/-- Takes one input for each formal, in order, into a frame. -/
def bindInputs (ev : Evaluator) (caller : String) : List String → Table Node → Exec (Table Node)
  | [], frame => pure frame
  | formal :: formals, frame => do
    let v ← pullValue ev caller
    bindInputs ev caller formals (frame.insert formal v)

/-- Runs the lines of a procedure's body until one outputs. No line may give a value. -/
def runBody (ev : Evaluator) (name : String) : List (List Node) → Exec Result
  | [] => pure none
  | line :: lines => do
    match ← ev (.line line) with
    | none => runBody ev name lines
    | some (.output v) => pure (some v)
    | some v => fail (.unusedValueIn v.source name)

/-- Calls a procedure: takes its inputs, then runs its body in a frame of its own. -/
def callProcedure (ev : Evaluator) (p : Procedure) : Exec Result := do
  let frame ← bindInputs ev p.name p.formals {}
  withFrame frame (runBody ev p.name p.body)

/-- Calls the procedure with a name, of which the built-in ones come first. -/
def call (files : FileStore) (ev : Evaluator) (name : String) : Exec Result := do
  match Builtin.ofName? name with
  | some b => b.run files ev name
  | none =>
    match (← get).procedures.find? name with
    | some p => callProcedure ev p
    | none => fail (.unknownProcedure name)

/-! ## Nodes -/

def evalBinary (ev : Evaluator) (op : Operator) (left right : Node) : Exec Node :=
  if op.isComparison then do
    let a ← valueOf ev op.symbol left
    let b ← valueOf ev op.symbol right
    ofExcept (compareValues op a b)
  else do
    let a ← numberOf ev op.symbol left
    let b ← numberOf ev op.symbol right
    return .num (← ofExcept (arithmetic op a b))

/-- Evaluates one node, given the evaluator for the nodes inside it. -/
def evaluate (files : FileStore) (ev : Evaluator) : Node → Exec Result
  | .num x => pure (some (.num x))
  | .word s => pure (some (.word s))
  | .list items => pure (some (.list items))
  | .var name => do return some (← lookup name)
  | .call name => call files ev name
  | .line items => evalLine ev items
  | .group items => evalGroup ev items
  | .neg operand => do return some (.num (-(← numberOf ev Operator.minus.symbol operand)))
  | .binary op left right => do return some (← evalBinary ev op left right)
  | .nary op items => do return some (.num (accumulate op (← evalOperands ev op.symbol items)))
  | .output v => pure (some (.output v))
  | .empty => fail .meaningless

/-- Evaluates a node with at most `depth` nested evaluations. -/
def eval (files : FileStore) : (depth : Nat) → Evaluator
  | 0, _ => crash .stackOverflow
  | depth + 1, node => evaluate files (eval files depth) node

/-- How deeply evaluations may be nested. -/
def depthLimit : Nat := 4000

/-- The evaluator with the usual bound on the nesting. -/
def evaluator (files : FileStore) : Evaluator := eval files depthLimit

def feedLine (files : FileStore) (line : String) : Exec Result :=
  feed (evaluator files) line

def loadFile (files : FileStore) (name : String) : Exec Unit :=
  load files (evaluator files) name

end TurtleLogo

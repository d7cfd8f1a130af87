import TurtleLogo.Eval.Load

/-!
# What the built-in procedures do

Each takes the inputs that it needs and gives a value, an output, or nothing. Faults name the procedure by the name
it was called by.

* `perform` : tells the turtle something;
* `repeatBlock`, `countBlock` : the two loops;
* `elements` : what `ITEM` picks from;
* `Builtin.run` : runs a built-in procedure.
-/

namespace TurtleLogo

open Exec

/-! ## The turtle -/

def perform (m : Motion) : Exec Result := do
  modify fun w => { w with drawing := w.drawing.apply m }
  pure none

def turtle : Exec Turtle := do
  return (← get).drawing.turtle

/-! ## Loops -/

/-- A number that must be finite, since loops count with it. -/
def expectFinite (caller : String) (x : Float) : Exec Float :=
  if x.isFinite then pure x else fail (.badInput caller (Number.numberText x))

/-- Runs a block `n` times, or until it outputs. -/
def repeatBlock (ev : Evaluator) (block : List Node) : Nat → Exec Result
  | 0 => pure none
  | n + 1 => do
    match ← runBlock ev block with
    | some r => pure (some r)
    | none => repeatBlock ev block n

/-- A counter that moves at every round passes its bound in fewer rounds than this. -/
def roundLimit : Nat := Number.twoTo 60

/-- Counts from `current` by `step` up or down to `stop`, and runs a block for each value of the variable. -/
def countBlock (ev : Evaluator) (var : String) (block : List Node) (step stop : Float) : Nat → Float → Exec Result
  | 0, _ => crash .endlessLoop
  | n + 1, current =>
    if if 0 < step then current ≤ stop else stop ≤ current then do
      modify (·.assign var (.num current))
      match ← runBlock ev block with
      | some r => pure (some r)
      | none => countBlock ev var block step stop n (current + step)
    else pure none

/-! ## Lists and printing -/

/-- What a thing is made of: the items of a list, the characters of a word or of a number's text. -/
def elements : Node → List Node
  | .list items => items
  | .word s => s.toList.map fun c => .word c.toString
  | .num x => (Number.numberText x).toList.map fun c => .word c.toString
  | _ => []

def item? (index : Float) (thing : Node) : Option Node :=
  let i := Number.truncate index
  if Number.isInteger index && 1 ≤ i then (elements thing)[i.toNat - 1]?.map Node.asValue else none

/-- A value as it is printed: a list without its brackets. -/
def printed : Node → String
  | .list items => " ".intercalate (Node.texts false items)
  | v => v.display

/-- The lines that show a procedure's definition. -/
def Procedure.listing (p : Procedure) : List String :=
  p.title :: p.source.map ("  " ++ ·) ++ ["END"]

def variableListing (title : String) (scope : Table Node) : List String :=
  (title ++ ":") :: scope.entries.map fun (name, value) => "MAKE \"" ++ name ++ " " ++ value.source

/-! ## All of them -/

/-- Runs a built-in procedure that was called by `name`. -/
def Builtin.run (files : FileStore) (ev : Evaluator) (name : String) : Builtin → Exec Result
  | .forward => do perform (.forward (← pullNumber ev name))
  | .back => do perform (.back (← pullNumber ev name))
  | .right => do perform (.right (← pullNumber ev name))
  | .left => do perform (.left (← pullNumber ev name))
  | .clearScreen => do
    let _ ← perform .home
    perform .clear
  | .home => perform .home
  | .clean => perform .clear
  | .penDown => perform .penDown
  | .penUp => perform .penUp
  | .setXY => do
    let x ← pullNumber ev name
    let y ← pullNumber ev name
    perform (.setPosition x y)
  | .setX => do
    let t ← turtle
    perform (.setPosition (← pullNumber ev name) t.y)
  | .setY => do
    let t ← turtle
    perform (.setPosition t.x (← pullNumber ev name))
  | .setHeading => do perform (.setHeading (← pullNumber ev name))
  | .getXY => do
    let t ← turtle
    return some (.list [.num t.x, .num t.y])
  | .xCor => do return some (.num (← turtle).x)
  | .yCor => do return some (.num (← turtle).y)
  | .heading => do return some (.num (← turtle).heading)
  | .make => do
    let var ← pullWord ev name
    let value ← pullValue ev name
    modify (·.assign var value)
    return none
  | .output => do return some (.output (← pullValue ev name))
  | .repeatTimes => do
    let count ← expectFinite name (← pullNumber ev name)
    let block ← pullList ev name
    repeatBlock ev block (Number.truncate count).toNat
  | .forEach => do
    let var ← pullWord ev name
    let start ← expectFinite name (← pullNumber ev name)
    let stop ← expectFinite name (← pullNumber ev name)
    let block ← pullList ev name
    countBlock ev var block (if start ≤ stop then 1 else -1) stop roundLimit start
  | .list => do
    let first ← pullValue ev name
    let second ← pullValue ev name
    return some (.list [first, second])
  | .lput => do
    let item ← pullValue ev name
    let items ← pullList ev name
    return some (.list (items ++ [item]))
  | .item => do
    let index ← pullNumber ev name
    let thing ← pullValue ev name
    match item? index thing with
    | some v => return some v
    | none => fail (.badInput name (Number.numberText index))
  | .print => do
    Exec.print (printed (← pullValue ev name))
    return none
  | .printProcedures => do
    modify fun w => w.printAll (w.procedures.values.flatMap Procedure.listing)
    return none
  | .printNames => do
    modify fun w => w.printAll (variableListing "Locals" w.locals ++ variableListing "Globals" w.globals)
    return none
  | .load => do
    TurtleLogo.load files ev (← pullWord ev name)
    return none
  | .title => fail (.strayTitle name)
  | .endTitle => fail (.strayEnd name)

end TurtleLogo

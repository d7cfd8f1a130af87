import TurtleLogo.Eval.Builtin
import TurtleLogo.Eval.Inputs

/-!
# Feeding lines

A line is read and then run, unless it goes on with the next one, or a procedure is being defined: then it is collected
into the procedure's body.

* `readLine` : the text and the expressions of a line, with the lines it continues;
* `beginDefinition`, `collect`, `define` : the three stages of a definition;
* `handleLine` : what happens to the expressions of a line, `feed` : what happens to its text.
-/

namespace TurtleLogo

open Exec Text

/-! ## Reading -/

/-- A failure of reading a line: a fault is told the text it came from, and shows no place in it if the text is that of
several lines. -/
def Failure.inLine (text : String) (continued : Bool) : Failure → Failure
  | .fault f => .fault (({ f with diagnosis := f.diagnosis && !continued } : Fault).locate text none none)
  | .crash c => .crash c

/-- Whether tokens end in a continuation. -/
def endsInCont (tokens : List Token) : Bool :=
  tokens.getLast?.any (·.kind == .lineCont)

/-- Reads a line together with the lines it continues: its text and its expressions, or no expressions if it goes on
itself. Whatever happens, the continuation so far is used up. -/
def readLine (line : String) : Exec (String × Option (List Node)) := fun w =>
  let held := w.continuation
  let text := held.text ++ line
  let continued := !held.tokens.isEmpty
  let w := { w with continuation := {} }
  match tokenize line with
  | .error e => (.error ((e.failure line).inLine text continued), w)
  | .ok fresh =>
    let tokens := held.tokens ++ fresh
    if endsInCont tokens then (.ok (text, none), { w with continuation := { tokens, text } })
    else
      match parseLine tokens with
      | .error e => (.error ((e.failure tokens).inLine text continued), w)
      | .ok items => (.ok (text, some items), w)

/-! ## Definitions -/

/-- Whether a line begins with a call of `name`. -/
def startsWith (name : String) : List Node → Bool
  | .call n :: _ => n == name
  | _ => false

/-- The inputs that a title lists, which are all variables. -/
def formals : List Node → Except Cause (List String)
  | [] => .ok []
  | .var name :: rest => (formals rest).map (name :: ·)
  | node :: _ => .error (.titleInput node.source)

/-- The procedure that a title begins. -/
def titled : List Node → Except Cause Procedure
  | [] => .error .untitled
  | .call name :: inputs =>
    if Builtin.isName name then .error (.nameInUse name)
    else (formals inputs).map fun formals => { name, formals }
  | node :: _ => .error (.titleName node.source)

def beginDefinition (title : List Node) : Exec Unit := do
  let p ← ofExcept (titled title)
  modify fun w => { w with definition := some p }

def parseText (text : String) : Except Failure (List Node) :=
  match tokenize text with
  | .error e => .error (e.failure text)
  | .ok tokens => (parseLine tokens).mapError (·.failure tokens)

def Procedure.ofLines (name : String) (formals : List String) (lines : List String) : Except Failure Procedure := do
  let body ← lines.mapM parseText
  return { name, formals, body, source := lines }

def define (p : Procedure) : Exec Unit :=
  if Builtin.isName p.name then fail (.nameInUse p.name)
  else modify fun w => { w with procedures := w.procedures.insert p.name p }

/-- Adds a line to the procedure being defined, or ends the definition. -/
def collect (p : Procedure) (text : String) (items : List Node) : Exec Unit :=
  if startsWith "TO" items then fail (.nestedTitle p.name)
  else if startsWith "END" items then do
    modify fun w => { w with definition := none }
    define p
  else if items.isEmpty then pure ()
  else modify fun w => { w with definition := some (p.addLine items (trim isWhite text)) }

/-! ## Lines -/

/-- Runs a line that was read outside of a definition. A procedure's output has no place there. -/
def runLine (ev : Evaluator) (items : List Node) : Exec Result := do
  match ← ev (.line items) with
  | some (.output _) => fail .outputOutside
  | r => pure r

def handleLine (ev : Evaluator) (text : String) (items : List Node) : Exec Result := do
  match (← get).definition with
  | some p => do collect p text items; pure none
  | none =>
    if startsWith "TO" items then do beginDefinition items.tail; pure none
    else runLine ev items

def feed (ev : Evaluator) (line : String) : Exec Result := do
  let (text, items?) ← readLine line
  match items? with
  | none => pure none
  | some items => handleLine ev text items

end TurtleLogo

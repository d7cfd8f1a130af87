import TurtleLogo.Node
import TurtleLogo.Table
import TurtleLogo.Turtle

/-!
# The workspace

Everything that one line of a program leaves for the next, and what the running line keeps track of.

* `Procedure` : a procedure with its title;
* `Continuation` : the tokens and the text of a line that goes on;
* `Workspace` : variables, frames, queues, procedures, the open definition, the drawing and what was printed;
* `Workspace.lookup?`, `Workspace.assign` : variables, of which the innermost frame's come first;
* `Workspace.print` : prints one line of text.
-/

namespace TurtleLogo

/-- A procedure: its inputs, the lines of its body, and these lines as they were typed. -/
structure Procedure where
  name : String
  formals : List String
  body : List (List Node) := []
  source : List String := []

/-- The line that begins a procedure's definition. -/
def Procedure.title (p : Procedure) : String :=
  " ".intercalate ("TO" :: p.name :: p.formals.map (":" ++ ·))

/-- Adds a line to a procedure's body. -/
def Procedure.addLine (p : Procedure) (items : List Node) (text : String) : Procedure :=
  { p with body := p.body ++ [items], source := p.source ++ [text] }

/-- A line that goes on: its tokens so far and its text. There is one iff there are tokens. -/
structure Continuation where
  tokens : List Token := []
  text : String := ""

/-- The state of a program. -/
structure Workspace where
  globals : Table Node := {}
  /-- The variables of the running procedures, innermost first. -/
  frames : List (Table Node) := []
  /-- What is left of every open line, list and call, innermost first. -/
  pending : List (List Node) := []
  procedures : Table Procedure := {}
  /-- The procedure whose lines are being typed. -/
  definition : Option Procedure := none
  continuation : Continuation := {}
  drawing : Drawing := {}
  /-- The lines printed, without their ends. -/
  printed : Array String := #[]

namespace Workspace

def isIdle (w : Workspace) : Bool := w.frames.isEmpty && w.pending.isEmpty

def locals (w : Workspace) : Table Node := w.frames.headD {}

def lookup? (w : Workspace) (name : String) : Option Node :=
  w.locals.find? name <|> w.globals.find? name

/-- Gives a variable a value: the innermost procedure's own if it has one of that name, else the global one. -/
def assign (w : Workspace) (name : String) (value : Node) : Workspace :=
  match w.frames with
  | frame :: outer =>
    if frame.contains name then { w with frames := frame.insert name value :: outer }
    else { w with globals := w.globals.insert name value }
  | [] => { w with globals := w.globals.insert name value }

/-- Prints one line. -/
def print (w : Workspace) (text : String) : Workspace :=
  { w with printed := w.printed.push text }

/-- Prints lines. -/
def printAll (w : Workspace) (lines : List String) : Workspace :=
  lines.foldl print w

/-- All that was printed, as text. -/
def printedText (w : Workspace) : String :=
  String.join (w.printed.toList.map (· ++ "\n"))

end Workspace

end TurtleLogo

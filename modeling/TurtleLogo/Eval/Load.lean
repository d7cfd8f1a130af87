import TurtleLogo.Eval.Feed
import TurtleLogo.FileStore

/-!
# Loading files

A file is fed line by line. Neither a continuation nor a definition crosses its border: the continuation that was open
before is put back, and a definition that is open at the end is dropped with a fault.

* `resolve` : the path that a name stands for;
* `feedLines` : feeds lines and prints the values they produce;
* `closeFile` : what a file leaves behind, by the outcome of its lines;
* `load` : loads a file.
-/

namespace TurtleLogo

open Exec

def resolve (files : FileStore) (name : String) : Exec String :=
  match files.resolve? name with
  | some path => pure path
  | none => fail (.fileNotFound name)

/-- Feeds one line of a file. A fault remembers the line. -/
def feedLineOf (ev : Evaluator) (path : String) (number : Nat) (line : String) : Exec Result := fun w =>
  match feed ev line w with
  | (.error (.fault f), w') => (.error (.fault (f.passing ⟨path, number, line⟩)), w')
  | r => r

def feedLines (ev : Evaluator) (path : String) : Nat → List String → Exec Unit
  | _, [] => pure ()
  | number, line :: lines => do
    match ← feedLineOf ev path number line with
    | some v => print v.display
    | none => pure ()
    feedLines ev path (number + 1) lines

/-- Feeds what can be read of a file. -/
def feedText (ev : Evaluator) (path : String) : FileText → Exec Unit
  | .lines lines => feedLines ev path 1 lines
  | .broken lines => do
    feedLines ev path 1 lines
    fail (.fileUnreadable path)

/-- Runs an action with an empty continuation and puts the present one back. After a fault no definition is open. -/
def inFile (body : Exec Unit) : Exec Unit := fun w =>
  match body { w with continuation := {} } with
  | (.error (.fault f), w') => (.error (.fault f), { w' with continuation := w.continuation, definition := none })
  | (r, w') => (r, { w' with continuation := w.continuation })

/-- Drops a definition that a file has left open, with a fault. -/
def closeFile (path : String) : Exec Unit := fun w =>
  match w.definition with
  | some p => fail (.missingEnd p.name path) { w with definition := none }
  | none => (.ok (), w)

def load (files : FileStore) (ev : Evaluator) (name : String) : Exec Unit := do
  let path ← resolve files name
  inFile (feedText ev path (files.read path))
  closeFile path

end TurtleLogo

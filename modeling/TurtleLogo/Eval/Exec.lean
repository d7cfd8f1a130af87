import TurtleLogo.Fault
import TurtleLogo.Workspace

/-!
# Running things

Running something gives a result or fails, and changes the workspace in either case.

* `Exec` : something that can be run, a monad;
* `fail`, `crash` : stops with a fault or a crash;
* `withQueue`, `withFrame` : runs an action with a new queue, or with a new frame, which are gone afterwards whatever
  the outcome;
* `next?` : takes the next expression off the innermost queue.
-/

namespace TurtleLogo

def Exec (α : Type) : Type := Workspace → Except Failure α × Workspace

/-- What evaluating gives: nothing, a value, or an `output` node that ends the running procedure. -/
abbrev Result := Option Node

abbrev Evaluator := Node → Exec Result

namespace Exec

variable {α β : Type}

@[inline] instance : Monad Exec where
  pure a := fun w => (.ok a, w)
  bind x f := fun w =>
    match x w with
    | (.ok a, w') => f a w'
    | (.error e, w') => (.error e, w')

@[simp] theorem pure_apply (a : α) (w : Workspace) : (pure a : Exec α) w = (.ok a, w) := rfl

theorem bind_apply (x : Exec α) (f : α → Exec β) (w : Workspace) :
    (x >>= f) w = match x w with
      | (.ok a, w') => f a w'
      | (.error e, w') => (.error e, w') := rfl

@[inline] def stop (f : Failure) : Exec α := fun w => (.error f, w)

@[inline] def fail (cause : Cause) : Exec α := stop (.fault (.running cause))

@[inline] def crash (c : Crash) : Exec α := stop (.crash c)

/-- Goes on with a value, or stops with a fault of the running line. -/
@[inline] def ofExcept : Except Cause α → Exec α
  | .ok a => pure a
  | .error cause => fail cause

@[inline] def get : Exec Workspace := fun w => (.ok w, w)

@[inline] def modify (f : Workspace → Workspace) : Exec Unit := fun w => (.ok (), f w)

/-- Runs an action on a changed workspace, and then changes what it leaves, whatever the outcome. -/
@[inline] def around (enter leave : Workspace → Workspace) (body : Exec α) : Exec α := fun w =>
  match body (enter w) with
  | (r, w') => (r, leave w')

def withQueue (items : List Node) (body : Exec α) : Exec α :=
  around (fun w => { w with pending := items :: w.pending }) (fun w => { w with pending := w.pending.tail }) body

/-- Runs an action with a new innermost frame and an empty queue. -/
def withFrame (frame : Table Node) (body : Exec α) : Exec α :=
  around (fun w => { w with frames := frame :: w.frames, pending := [] :: w.pending })
    (fun w => { w with frames := w.frames.tail, pending := w.pending.tail }) body

def next? : Exec (Option Node) := fun w =>
  match w.pending with
  | (node :: rest) :: outer => (.ok (some node), { w with pending := rest :: outer })
  | _ => (.ok none, w)

def isMore : Exec Bool := fun w =>
  match w.pending with
  | (_ :: _) :: _ => (.ok true, w)
  | _ => (.ok false, w)

def print (text : String) : Exec Unit := modify (·.print text)

end Exec

end TurtleLogo

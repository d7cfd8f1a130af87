import TurtleLogo.Fault
import TurtleLogo.Table

/-!
# Reports

What is written about a fault: the lines that led to it, its message, and the line to blame with a caret.

* `Traceback` : the line that is being fed from each source, if any;
* `diagnose` : the line to blame, with the part to blame highlighted and underlined;
* `Traceback.report`, `Traceback.warning` : the text of a report;
* `Trouble`, `Traceback.handle` : what happens to whatever stopped a line.
-/

namespace TurtleLogo

open Text

/-- For each source of lines, in the order in which they were met, the line being fed and its number. -/
abbrev Traceback := Table (Option (String × Int))

/-! ## Text of a report -/

/-- The part of a line to blame ends no earlier than one character after it begins, and no later than the line does. -/
def Fault.markEnd (f : Fault) : Int :=
  min (max f.stop (f.start + 1)) (max f.expr.length (f.start + 1))

/-- The line to blame with the part to blame in a colour, and below it a caret. -/
def diagnose (colour : Colour) (f : Fault) : String :=
  let stop := f.markEnd
  "  " ++ slice f.expr 0 f.start ++ bright colour (slice f.expr f.start stop) ++ sliceFrom f.expr stop ++ "\n" ++
    "  " ++ times " " f.start ++ bright colour ("^" ++ times "~" (stop - f.start - 1))

def Fault.isShown (f : Fault) : Bool :=
  !f.internal && !f.expr.isEmpty && f.diagnosis

/-- The line to blame as further lines of a report. -/
def Fault.shown (colour : Colour) (f : Fault) : String :=
  if f.isShown then diagnose colour f ++ "\n" else ""

def Location.entry (l : Location) : String :=
  "  File '" ++ l.path ++ "', line " ++ Number.intText l.line ++ ":\n    " ++ trimRight isWhite l.text ++ "\n"

namespace Traceback

def current (t : Traceback) : List Location :=
  t.entries.filterMap fun
    | (path, some (text, line)) => if text.isEmpty then none else some ⟨path, line, text⟩
    | (_, none) => none

def frames (t : Traceback) (f : Fault) : List Location :=
  t.current ++ f.trace.reverse

def report (t : Traceback) (f : Fault) : String :=
  let frames := t.frames f
  (if 1 < frames.length then "Traceback:\n" else "") ++ String.join (frames.map Location.entry) ++
    (if f.internal then bright .red "[internal] " else "") ++ bright .red "error: " ++ f.message.styled ++ "\n" ++
    f.shown .red

/-- Where a warning is given: at the last line being fed. -/
def warningPlace (t : Traceback) : String :=
  t.entries.foldl (fun place entry =>
    match entry with
    | (path, some (_, line)) => path ++ ":" ++ Number.intText line ++ ": "
    | (_, none) => place) ""

def warning (t : Traceback) (f : Fault) : String :=
  bold t.warningPlace ++ bright .magenta "warning: " ++ f.message.styled ++ "\n" ++ f.shown .magenta

def removeLine (t : Traceback) (path : String) : Traceback := t.insert path none

def registerLine (t : Traceback) (path text : String) (line : Int) : Traceback := t.insert path (some (text, line))

def forget (t : Traceback) : Traceback := t.mapValues fun _ => none

end Traceback

/-! ## Handling -/

/-- Whatever stops a line or the whole program. -/
inductive Trouble where
  | fault (f : Fault)
  | interrupt
  | exit (code : Option Int)
  /-- A crash, which may have been reported already. -/
  | crash (c : Crash) (reported : Bool)

def Failure.trouble : Failure → Trouble
  | .fault f => .fault f
  | .crash c => .crash c false

def Trouble.reported? : Trouble → Option Fault
  | .fault f => some f
  | .interrupt => some (.unplaced .interrupted false)
  | .crash .stackOverflow _ => some (.unplaced .tooDeep false)
  | .crash c false => some (.unplaced (.internal c.kind c.description) true)
  | .crash _ true | .exit _ => none

/-- What is left of some trouble once it has been reported. -/
def Trouble.remaining? : Trouble → Option Trouble
  | .fault _ | .interrupt | .crash .stackOverflow _ => none
  | .exit code => some (.exit code)
  | .crash c _ => some (.crash c true)

/-- Reports trouble: the text of the report, the lines being fed afterwards, and the trouble that is left. -/
def Traceback.handle (t : Traceback) (trouble : Trouble) : String × Traceback × Option Trouble :=
  match trouble.reported? with
  | some f => (t.report f, t.forget, trouble.remaining?)
  | none => ("", t, trouble.remaining?)

/-- Passes trouble through `depth` handlers, one inside the other. -/
def Traceback.handleAll (t : Traceback) : Nat → Trouble → String × Traceback × Option Trouble
  | 0, trouble => ("", t, some trouble)
  | depth + 1, trouble =>
    match t.handle trouble with
    | (text, t', none) => (text, t', none)
    | (text, t', some left) =>
      let (more, t'', left') := t'.handleAll depth left
      (text ++ more, t'', left')

end TurtleLogo

import TurtleLogo.Eval
import TurtleLogo.Report

/-!
# Sessions

A session feeds lines from one source to a workspace. A line that fails is reported and the session goes on; only a
crash of the interpreter ends it.

* `Transcript` : everything that was written, by channel and in order;
* `Session` : the workspace with the results so far and the transcript;
* `Session.add` : feeds a line, `Session.run` a whole file;
* `Session.pop` : takes back the latest result.
-/

namespace TurtleLogo

open Text

/-! ## Transcripts -/

/-- Who writes. -/
inductive Channel where
  | program
  | report
  | shell
  deriving DecidableEq

/-- Everything that was written, in order. -/
abbrev Transcript := Array (Channel × String)

def Transcript.on (t : Transcript) (channel : Channel) : String :=
  String.join ((t.toList.filter (·.1 = channel)).map (·.2))

def Transcript.text (t : Transcript) : String :=
  String.join (t.toList.map (·.2))

/-! ## Sessions -/

def typedSource : String := "<in>"

structure Session where
  /-- The source of the lines, as reports name it. -/
  path : String
  workspace : Workspace := {}
  traceback : Traceback
  lineNumber : Int := 0
  results : List Node := []
  transcript : Transcript := #[]

namespace Session

def new (path : String) : Session :=
  { path, traceback := Traceback.removeLine {} path }

def isContinuing (s : Session) : Bool :=
  !s.workspace.continuation.tokens.isEmpty || s.workspace.definition.isSome

def write (s : Session) (channel : Channel) (text : String) : Session :=
  if text.isEmpty then s else { s with transcript := s.transcript.push (channel, text) }

def flush (s : Session) : Session :=
  ({ s with workspace := { s.workspace with printed := #[] } } : Session).write .program s.workspace.printedText

/-- Numbers a line and registers it, in case it fails. -/
def begin (s : Session) (line : String) (number : Option Int) : Session :=
  let lineNumber := number.getD (s.lineNumber + 1)
  { s with
    lineNumber
    traceback := s.traceback.registerLine s.path (trimRight isNewline line) lineNumber }

/-- Reports trouble. A crash is left. -/
def handle (s : Session) (trouble : Trouble) : Except Crash Unit × Session :=
  let (text, traceback, left) := s.traceback.handle trouble
  let s := ({ s with traceback } : Session).write .report text
  match left with
  | some (.crash c _) => (.error c, s)
  | _ => (.ok (), s)

/-- Takes over the outcome of a line: prints the value that it produced, or reports its failure. -/
def finish (s : Session) : Except Failure Result × Workspace → Except Crash Result × Session
  | (.ok r, w) =>
    let s := { s with workspace := w, traceback := s.traceback.removeLine s.path }
    match r with
    | none => (.ok none, s.flush)
    | some v =>
      (.ok (some v), ({ s with workspace := w.print v.display, results := s.results ++ [v] } : Session).flush)
  | (.error e, w) =>
    match ({ s with workspace := w } : Session).flush.handle e.trouble with
    | (.error c, s) => (.error c, s)
    | (.ok (), s) => (.ok none, s)

def add (files : FileStore) (s : Session) (line : String) (number : Option Int) : Except Crash Result × Session :=
  let s := s.begin line number
  s.finish (feedLine files line s.workspace)

/-- Feeds numbered lines up to the first that crashes. -/
def addAll (files : FileStore) (s : Session) : List (String × Option Int) → Except Crash Unit × Session
  | [] => (.ok (), s)
  | (line, number) :: lines =>
    match s.add files line number with
    | (.ok _, s) => s.addAll files lines
    | (.error c, s) => (.error c, s)

/-- Numbers the lines of a file from 1. -/
def numbered (lines : List String) : List (String × Option Int) :=
  lines.zipIdx 1 |>.map fun (line, n) => (line, some (n : Int))

/-- The lines of the session's own file, or the trouble with it. A null character in the path is a crash; any other
path that cannot be read is a fault. -/
def ownLines (files : FileStore) (s : Session) : Except Trouble (List String) :=
  if s.path.contains (Char.ofNat 0) then .error (.crash .nullInPath false)
  else
    match files.read s.path with
    | .lines lines => .ok lines
    | .broken _ => .error (.fault (.running (.fileNotOpened s.path)))

def addFile (files : FileStore) (s : Session) : Except Crash Unit × Session :=
  match s.ownLines files with
  | .ok lines => s.addAll files (numbered lines)
  | .error trouble => s.handle trouble

/-- Warns if the last line of a file is not finished. -/
def warnUnfinished (s : Session) : Session :=
  if s.isContinuing then
    let message : Message := ["'", .part s.path, "' ended before its last line was finished"]
    s.write .report (s.traceback.warning { cause := .stated .general message, diagnosis := false })
  else s

/-- Feeds commands, and then the session's own file unless its lines are typed. -/
def run (files : FileStore) (s : Session) (commands : List String) : Except Crash Unit × Session :=
  match s.addAll files (commands.map (·, none)) with
  | (.error c, s) => (.error c, s)
  | (.ok (), s) =>
    if s.path = typedSource then (.ok (), s)
    else
      match s.addFile files with
      | (.error c, s) => (.error c, s)
      | (.ok (), s) => (.ok (), s.warnUnfinished)

def pop (s : Session) : Except Crash Node × Session :=
  match s.results.getLast? with
  | some v => (.ok v, { s with results := s.results.dropLast })
  | none => (.error .nothingToPop, s)

end Session

end TurtleLogo

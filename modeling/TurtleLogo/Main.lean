import TurtleLogo.Program

/-!
# The command

The outer layer: it reads files and lines, and writes what a session says as soon as it is said.

A line is run without any file. If it asks for one that can be read, it is run again with that file, which is safe since
running a line changes nothing but the workspace it gives back.

* `fetch`, `fetchCandidates` : files from the disk;
* `feedFetching` : feeds a line with the files that it asks for;
* `addLine`, `addLines`, `shellLoop` : sessions;
* `main` : the command.
-/

namespace TurtleLogo.Command

open CommandLine

def fetch (path : String) : IO (Option FileEntry) := do
  try
    return some (.file (← IO.FS.readBinFile path).toList)
  catch _ => return none

/-- Adds every file that a name may stand for, and tells whether there was one. -/
def fetchCandidates (files : FileStore) (name : String) : IO (FileStore × Bool) :=
  (candidates name).foldlM (fun (files, found) path => do
    match ← fetch path with
    | some entry => return (files.insert path entry, true)
    | none => return (files, found)) (files, false)

/-- How many files one line may ask for. -/
def fetchLimit : Nat := 100000

/-- Feeds a line, again and again as long as it asks for another file that can be read. -/
def feedFetching : Nat → FileStore → String → Workspace → IO (Except Failure Result × Workspace)
  | 0, files, line, w => return feedLine files line w
  | n + 1, files, line, w => do
    let outcome := feedLine files line w
    match outcome.1 with
    | .error (.fault { cause := .fileNotFound name, .. }) =>
      let (files, found) ← fetchCandidates files name
      if found then feedFetching n files line w else return outcome
    | _ => return outcome

def say (s : Session) : IO Session := do
  let out ← IO.getStdout
  out.putStr s.transcript.text
  out.flush
  return { s with transcript := #[] }

def addLine (s : Session) (line : String) (number : Option Int) : IO (Except Crash Result × Session) := do
  let s := s.begin line number
  let (r, s) := s.finish (← feedFetching fetchLimit {} line s.workspace)
  return (r, ← say s)

def addLines (s : Session) : List (String × Option Int) → IO (Except Crash Unit × Session)
  | [] => return (.ok (), s)
  | (line, number) :: lines => do
    match ← addLine s line number with
    | (.ok _, s) => addLines s lines
    | (.error c, s) => return (.error c, s)

def runFile (s : Session) : IO (Except Crash Unit × Session) := do
  let files : FileStore :=
    match ← fetch s.path with
    | some entry => ⟨[(s.path, entry)]⟩
    | none => {}
  let (r, s) ← match s.ownLines files with
    | .ok lines => addLines s (Session.numbered lines)
    | .error trouble => pure (s.handle trouble)
  match r with
  | .ok () => return (.ok (), ← say s.warnUnfinished)
  | .error c => return (.error c, ← say s)

def command (sh : Shell) (line : String) : IO (Except Crash Stop × Shell) := do
  match sh.answer? line with
  | some (stop, sh) => return (.ok stop, { sh with session := ← say sh.session })
  | none =>
    match ← addLine sh.session line none with
    | (.ok _, s) => return (.ok .goOn, sh.resume s)
    | (.error c, s) => return (.error c, { sh with session := s })

partial def shellLoop (sh : Shell) : IO (Except Crash Unit × Session) := do
  let sh := { sh with session := ← say (sh.write sh.prompt).session }
  let line ← (← IO.getStdin).getLine
  let text := if line.isEmpty then endOfInput else if line.endsWith "\n" then (line.dropEnd 1).toString else line
  match ← command sh text with
  | (.ok .leave, sh) => return (.ok (), sh.session)
  | (.ok _, sh) => shellLoop sh
  | (.error c, sh) => return (.error c, sh.session)

def runSession (options : Options) : IO (Except Crash Unit × Session) := do
  let s := Session.new (options.file.getD typedSource)
  match ← addLines s ((if options.inject then demo else []).map (·, none)) with
  | (.error c, s) => return (.error c, s)
  | (.ok (), s) =>
    match options.file with
    | some path => if path = typedSource then return (.ok (), s) else runFile s
    | none =>
      let sh : Shell := { session := s }
      shellLoop { sh with session := ← say (sh.write (shellIntro ++ "\n")).session }

/-- Runs the command. The calls for a window go to the error stream, one a line. -/
def run (arguments : List String) : IO UInt32 := do
  match Invocation.ofArguments arguments with
  | .help => IO.print helpText; return 0
  | .refused reason => IO.eprint (refusal reason); return 2
  | .run options =>
    let (r, s) ← runSession options
    for c in (s.outcome options r).window do
      IO.eprintln c.line
    match r with
    | .ok () => return 0
    | .error c => IO.eprintln (c.kind ++ ": " ++ c.description); return 1

end TurtleLogo.Command

def main (arguments : List String) : IO UInt32 :=
  TurtleLogo.Command.run arguments

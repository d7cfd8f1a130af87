import TurtleLogo.CommandLine
import TurtleLogo.Shell
import TurtleLogo.Window

/-!
# The program

A run of the program from its arguments and its input to everything that it writes.

* `demo` : the drawing that is made on request;
* `Ending`, `Outcome` : how a run ends, and what is left of it;
* `runProgram` : a whole run.
-/

namespace TurtleLogo

open CommandLine

def demo : List String :=
  ["REPEAT 6 [FD 50 LT 120 REPEAT 6 [FD 10 RT 60] RT 120 RT 60]"]

inductive Ending where
  | finished
  | exited (code : Nat)
  | crashed (c : Crash)

/-- What a run has written and shown, and how it ended. -/
structure Outcome where
  ending : Ending
  output : String := ""
  errors : String := ""
  window : List WindowCall := []

def Ending.ofExcept : Except Crash Unit → Ending
  | .ok () => .finished
  | .error c => .crashed c

def inputLines (input : String) : List String :=
  let (lines, last) := splitLines input.toList
  (lines.map (String.ofList ·.dropLast)) ++ (if last.isEmpty then [] else [String.ofList last])

/-- The outcome of a session. A window stays open after a file. -/
def Session.outcome (options : Options) (r : Except Crash Unit) (s : Session) : Outcome where
  ending := .ofExcept r
  output := s.transcript.text
  window :=
    if options.screen then
      let wait := options.file.isSome && r matches .ok ()
      s.workspace.drawing.windowCalls ++ if wait then waitForWindow else []
    else []

def runOptions (files : FileStore) (options : Options) (input : String) : Outcome :=
  let s := Session.new (options.file.getD typedSource)
  match s.run files (if options.inject then demo else []) with
  | (.error c, s) => s.outcome options (.error c)
  | (.ok (), s) =>
    if options.file.isSome then s.outcome options (.ok ())
    else
      let (r, sh) := Shell.loop files { session := s } (inputLines input)
      sh.session.outcome options r

def runProgram (files : FileStore) (arguments : List String) (input : String) : Outcome :=
  match Invocation.ofArguments arguments with
  | .help => { ending := .exited 0, output := helpText }
  | .refused reason => { ending := .exited 2, errors := refusal reason }
  | .run options => runOptions files options input

end TurtleLogo

import TurtleLogo.Session

/-!
# The shell

The shell knows three words of its own; every other line is Logo.

* `Shell` : a session with the prompt for the next line;
* `Stop` : whether the shell goes on after a line;
* `Shell.command` : does what a line says;
* `Shell.loop` : reads lines until there are no more.
-/

namespace TurtleLogo

open Text

def shellIntro : String :=
  "PC Logo interpreter :: Python backend\nType 'help' for more information, 'exit' to quit."

def shellHelp : String :=
  "Welcome to the PC Logo interpreter!\n\n" ++
  "Logo drives a turtle that draws as it moves. Try 'REPEAT 4 [FD 50 RT 90]' to\n" ++
  "draw a square. Arithmetic works infix ('PRINT 1 + 2 * 3') or prefix\n" ++
  "('PRINT (+ 1 2 3)'). Define your own procedures with\n\n" ++
  "    TO SQUARE :SIZE\n" ++
  "    REPEAT 4 [FD :SIZE RT 90]\n" ++
  "    END\n\n" ++
  "and end a line with '\\' to continue it on the next one."

def firstPrompt : String := "? "

/-- The prompt for a line that belongs to the one before. -/
def secondPrompt : String := "~ "

def endOfInput : String := "EOF"

structure Shell where
  session : Session
  prompt : String := firstPrompt

inductive Stop where
  | goOn
  | blank
  | leave
  deriving DecidableEq

namespace Shell

def write (sh : Shell) (text : String) : Shell :=
  { sh with session := sh.session.write .shell text }

def resume (sh : Shell) (session : Session) : Shell :=
  { sh with session, prompt := if session.isContinuing then secondPrompt else firstPrompt }

/-- The shell's own answer to a line, if it is not Logo. -/
def answer? (sh : Shell) (line : String) : Option (Stop × Shell) :=
  match trim isWhite line with
  | "help" => some (.goOn, sh.write (shellHelp ++ "\n"))
  | "exit" => some (.leave, sh)
  | "EOF" => some (.leave, sh.write "\n")
  | "" => some (.blank, sh)
  | _ => none

def command (files : FileStore) (sh : Shell) (line : String) : Except Crash Stop × Shell :=
  match sh.answer? line with
  | some (stop, sh) => (.ok stop, sh)
  | none =>
    match sh.session.add files line none with
    | (.ok _, session) => (.ok .goOn, sh.resume session)
    | (.error c, session) => (.error c, { sh with session })

/-- Prompts for each line and does what it says. After the last one the input ends. -/
def lines (files : FileStore) (sh : Shell) : List String → Except Crash Unit × Shell
  | [] =>
    match (sh.write sh.prompt).command files endOfInput with
    | (.ok _, sh) => (.ok (), sh)
    | (.error c, sh) => (.error c, sh)
  | line :: rest =>
    match (sh.write sh.prompt).command files line with
    | (.ok .leave, sh) => (.ok (), sh)
    | (.ok _, sh) => sh.lines files rest
    | (.error c, sh) => (.error c, sh)

/-- Greets, and then reads lines. -/
def loop (files : FileStore) (sh : Shell) (input : List String) : Except Crash Unit × Shell :=
  (sh.write (shellIntro ++ "\n")).lines files input

end Shell

end TurtleLogo

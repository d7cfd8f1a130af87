import TurtleLogo.Number.Text
import TurtleLogo.Text.Digit
import TurtleLogo.Text.Quoted

/-!
# The command line

* `Flag`, `Options` : what can be asked for;
* `Invocation` : what a command line says;
* `Argument.classify` : whether an argument is a flag, possibly abbreviated, or a file;
* `Invocation.ofArguments` : reads a command line from left to right.
-/

namespace TurtleLogo.CommandLine

open Text

inductive Flag where
  | help
  | screen
  | inject
  deriving DecidableEq, Repr

def Flag.name : Flag → String
  | .help => "--help"
  | .screen => "--screen"
  | .inject => "--inject"

def Flag.label : Flag → String
  | .help => "-h/--help"
  | f => f.name

def Flag.all : List Flag := [.help, .screen, .inject]

structure Options where
  file : Option String := none
  screen : Bool := false
  inject : Bool := false
  deriving DecidableEq, Repr

inductive Invocation where
  | run (options : Options)
  | help
  | refused (reason : String)
  deriving DecidableEq, Repr

def programName : String := "pclogo"

def usage : String := "usage: " ++ programName ++ " [-h] [--screen] [--inject] [file]\n"

def helpText : String :=
  usage ++ "\n" ++
  "PC Logo style interpreter with turtle graphics.\n\n" ++
  "positional arguments:\n" ++
  "  file        file to interpret and run (if empty, goes to command-line mode)\n\n" ++
  "options:\n" ++
  "  -h, --help  show this help message and exit\n" ++
  "  --screen    draw in a window instead of headless\n" ++
  "  --inject    run a demo drawing before anything else\n"

def refusal (reason : String) : String :=
  usage ++ programName ++ ": error: " ++ reason ++ "\n"

/-! ## Arguments -/

inductive Argument where
  | plain (text : String)
  /-- The mark after which every argument is plain. -/
  | dashes
  /-- A flag, with the value that was given to it. -/
  | flag (flag : Flag) (value : Option String)
  /-- Something that looks like a flag and is none. -/
  | unknown (text : String)
  /-- An abbreviation of several flags. -/
  | ambiguous (text : String)
  deriving DecidableEq, Repr

/-- A text without the line end that may end it. -/
def dropLineEnd (s : List Char) : List Char :=
  if s.getLast? = some '\n' then s.dropLast else s

/-- Whether a text without its minus is a number: digits of any script, with or without a point before the last of
them. One line end may follow. -/
def looksNumeric (s : List Char) : Bool :=
  let s := dropLineEnd s
  match s.dropWhile isDecimal with
  | [] => !s.isEmpty
  | '.' :: fraction => !fraction.isEmpty && fraction.all isDecimal
  | _ => false

/-- What a cluster of short flags gives to the last of them as a value. Only `h` is a short flag, so the value begins
with the first other character; without one there is none. -/
def clusterValue? : List Char → Option (List Char)
  | [] => none
  | 'h' :: rest => clusterValue? rest
  | value => some value

/-- A text up to its first equals sign, and what follows it. -/
def splitValue (s : List Char) : List Char × Option (List Char) :=
  match s.dropWhile (· != '=') with
  | _ :: value => (s.takeWhile (· != '='), some value)
  | [] => (s, none)

/-- What an argument that begins with a minus and is no flag is: a number or something with a space is plain. -/
def Argument.unmatched (s : String) : Argument :=
  if looksNumeric (s.toList.drop 1) || s.contains ' ' then .plain s else .unknown s

/-- What an argument before the dashes is. An equals sign between a flag and its value is no part of the value. -/
def Argument.classify (s : String) : Argument :=
  match s.toList with
  | ['-', '-'] => .dashes
  | '-' :: '-' :: _ =>
    let (name, value) := splitValue s.toList
    match Flag.all.filter fun f => name.isPrefixOf f.name.toList with
    | [] => .unmatched s
    | [f] => .flag f (value.map String.ofList)
    | _ => .ambiguous s
  | ['-', 'h', '='] => .flag .help (some "")
  | '-' :: 'h' :: '=' :: cluster => .flag .help ((clusterValue? cluster).map String.ofList)
  | '-' :: 'h' :: cluster => .flag .help ((clusterValue? cluster).map String.ofList)
  | '-' :: _ :: _ => .unmatched s
  | _ => .plain s

def classifyAll : List String → List Argument
  | [] => []
  | s :: rest =>
    match Argument.classify s with
    | .dashes => .dashes :: rest.map .plain
    | a => a :: classifyAll rest

/-! ## Reading -/

/-- What has been read: the options, whether the file's place is taken, and what has no place. -/
structure Reading where
  options : Options := {}
  placeTaken : Bool := false
  extras : List String := []

def Reading.surplus (r : Reading) (texts : List String) : Reading :=
  { r with extras := r.extras ++ texts }

def Reading.take (r : Reading) (file : Option String) : Reading :=
  { r with options := { r.options with file }, placeTaken := true }

def Reading.set (r : Reading) : Flag → Reading
  | .screen => { r with options := { r.options with screen := true } }
  | .inject => { r with options := { r.options with inject := true } }
  | .help => r

def Reading.result (r : Reading) : Invocation :=
  if r.extras.isEmpty then .run r.options
  else .refused ("unrecognized arguments: " ++ " ".intercalate r.extras)

/-- Reads arguments from left to right. Dashes beside the file belong to it; the second of two dashes is the file. -/
def Reading.read (r : Reading) : List Argument → Invocation
  | [] => r.result
  | .plain s :: .dashes :: rest =>
    if r.placeTaken then (r.surplus [s, "--"]).read rest else (r.take (some s)).read rest
  | .plain s :: rest =>
    if r.placeTaken then (r.surplus [s]).read rest else (r.take (some s)).read rest
  | .dashes :: .plain s :: rest =>
    if r.placeTaken then (r.surplus ["--", s]).read rest else (r.take (some s)).read rest
  | .dashes :: rest =>
    if r.placeTaken then (r.surplus ["--"]).read rest else (r.take none).read rest
  | .flag f (some value) :: _ =>
    .refused ("argument " ++ f.label ++ ": ignored explicit argument " ++ quoted value)
  | .flag .help none :: _ => .help
  | .flag f none :: rest => (r.set f).read rest
  | .unknown s :: rest => (r.surplus [s]).read rest
  | .ambiguous s :: rest => (r.surplus [s]).read rest

/-- The first ambiguous argument, which is refused before anything else. -/
def ambiguous? (arguments : List Argument) : Option String :=
  arguments.findSome? fun
    | .ambiguous s => some s
    | _ => none

def Invocation.ofArguments (texts : List String) : Invocation :=
  let arguments := classifyAll texts
  match ambiguous? arguments with
  | some s =>
    .refused ("ambiguous option: " ++ s ++ " could match " ++ ", ".intercalate (Flag.all.map Flag.name))
  | none => ({} : Reading).read arguments

end TurtleLogo.CommandLine

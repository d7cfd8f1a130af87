import TurtleLogo.Node.Parser
import TurtleLogo.Text.Trim
import TurtleLogo.Token.Lexer

/-!
# Faults and crashes

A fault is the program's own mistake: it has a cause, a message, and possibly the place in the line that is to blame.
A crash is a limit of the interpreter.

* `FaultKind` : the kinds of faults;
* `Cause` : everything that can be wrong, with `kind` and `message`;
* `Location` : a line of a file; `Fault` : a cause at its place, with the files it passed through;
* `Crash`, `Failure` : what stops a line.
-/

namespace TurtleLogo

open Text

inductive FaultKind where
  | general
  /-- A character that begins no token. -/
  | lexical
  /-- Tokens that are no line. -/
  | parse
  | runtime
  | unknownName
  /-- Too few inputs, or a value that nothing uses. -/
  | arity
  | type
  | definition
  | load
  deriving DecidableEq, Repr

/-- What is wrong. Texts of nodes are as they would be typed. -/
inductive Cause where
  /-- A character, as text, that begins no token. -/
  | strangeCharacter (char : String)
  | misread (error : ParseError)
  /-- An input is needed and no line is being run. -/
  | noLine
  /-- A node that has no meaning. -/
  | meaningless
  | divisionByZero
  /-- A value is given back outside of a procedure. -/
  | outputOutside
  | unknownVariable (name : String)
  | unknownProcedure (name : String)
  /-- The line ends before a procedure has its inputs. -/
  | moreInputs (caller : String)
  | unusedValue (value : String)
  /-- A value in a procedure's body that nothing uses. -/
  | unusedValueIn (value procedure : String)
  /-- An expression that should have given an input has given nothing. -/
  | noOutput (expression caller : String)
  /-- An input that is not of the kind required. -/
  | badInput (caller input : String)
  | untitled
  /-- A title whose first input is no name. -/
  | titleName (input : String)
  /-- A title with an input that is no variable. -/
  | titleInput (input : String)
  | nameInUse (name : String)
  | nestedTitle (name : String)
  /-- A title anywhere but at the start of a line. -/
  | strayTitle (name : String)
  /-- An end outside of a definition. -/
  | strayEnd (name : String)
  /-- A file ends inside a definition. -/
  | missingEnd (name path : String)
  | fileNotFound (name : String)
  | fileUnreadable (path : String)
  | fileNotOpened (path : String)
  | interrupted
  | tooDeep
  /-- A crash of the interpreter, by its kind and description. -/
  | internal (kind description : String)
  /-- Anything else. -/
  | stated (kind : FaultKind) (message : Message)

namespace Cause

def kind : Cause → FaultKind
  | .strangeCharacter _ => .lexical
  | .misread _ => .parse
  | .noLine | .meaningless | .divisionByZero | .outputOutside => .runtime
  | .unknownVariable _ | .unknownProcedure _ => .unknownName
  | .moreInputs _ | .unusedValue _ | .unusedValueIn _ _ => .arity
  | .noOutput _ _ | .badInput _ _ => .type
  | .untitled | .titleName _ | .titleInput _ | .nameInUse _ | .nestedTitle _ | .strayTitle _ | .strayEnd _
  | .missingEnd _ _ => .definition
  | .fileNotFound _ | .fileUnreadable _ | .fileNotOpened _ => .load
  | .interrupted | .tooDeep | .internal _ _ => .general
  | .stated k _ => k

def message : Cause → Message
  | .strangeCharacter c => ["I don't know what to do with the character '", .part c, "'"]
  | .misread e => e.message
  | .noLine => ["No line is being evaluated"]
  | .meaningless => ["I don't know how to evaluate ", .part "Empty()"]
  | .divisionByZero => ["Can't divide by zero"]
  | .outputOutside => ["Can only use ", .part "OUTPUT", " inside a procedure"]
  | .unknownVariable name => [":", .part name, " is not a known name"]
  | .unknownProcedure name => ["I don't know how to ", .part name]
  | .moreInputs caller => [.part caller, " needs more inputs"]
  | .unusedValue value => ["You don't say what to do with ", .part value]
  | .unusedValueIn value procedure => ["You don't say what to do with ", .part value, " in ", .part procedure]
  | .noOutput expression caller => [.part expression, " didn't output to ", .part caller]
  | .badInput caller input => [.part caller, " doesn't like ", .part input, " as input"]
  | .untitled => [.part "TO", " needs more inputs"]
  | .titleName input => [.part "TO", " needs a name as its first input, not ", .part input]
  | .titleInput input => [.part "TO", " doesn't like ", .part input, " as input"]
  | .nameInUse name => [.part name, " is already in use. Try a different name."]
  | .nestedTitle name => ["Can't use TO inside the definition of ", .part name]
  | .strayTitle name => [.part name, " can only be used at the start of a line typed at top level"]
  | .strayEnd name => [.part name, " without a matching TO"]
  | .missingEnd name path => [.part name, " has no END in ", .part path]
  | .fileNotFound name => ["I can't find the file ", .part name]
  | .fileUnreadable path => ["I can't read the file ", .part path]
  | .fileNotOpened path => ["'", .part path, "' could not be opened"]
  | .interrupted => ["keyboard interrupt"]
  | .tooDeep => ["stack overflow: too many nested procedure calls"]
  | .internal kind description => ["unknown error: '", .part kind, ": ", .part description, "'"]
  | .stated _ m => m

end Cause

structure Location where
  path : String
  line : Int
  text : String
  deriving DecidableEq

/-- A cause with what is known of its place. -/
structure Fault where
  cause : Cause
  /-- The column that was reported, where the kind of fault has one. -/
  col : Option Int := none
  /-- The line that is to blame, if it is known. -/
  expr : String := ""
  /-- Where the part to blame begins in the line. -/
  start : Int := 0
  /-- Where the part to blame ends. -/
  stop : Int := start + 1
  /-- Whether the part to blame is worth showing. -/
  diagnosis : Bool := true
  /-- Whether the interpreter is to blame. -/
  internal : Bool := false
  /-- The lines of files that the fault passed through, innermost first. -/
  trace : List Location := []

namespace Fault

/-- A fault of a running line: no column is known. -/
def running (cause : Cause) : Fault :=
  { cause, diagnosis := false }

/-- A character that begins no token, at a column of a line. -/
def strange (char : String) (col : Int) (line : String) : Fault :=
  { cause := .strangeCharacter char, col := some col, expr := line, start := col }

/-- A fault of reading tokens; without a column there is nothing to show. -/
def reading (cause : Cause) (col : Option Int) : Fault :=
  { cause, col, start := col.getD 0, diagnosis := col.isSome }

/-- A fault stated in full. An end of `-1` is unknown, and the part to blame is then one character. -/
def stated (message : Message) (expr : String) (start stop : Int) (diagnosis internal : Bool) : Fault :=
  { cause := .stated .general message, expr, start, stop := if stop = -1 then start + 1 else stop,
    diagnosis, internal }

/-- A fault with no place of its own. -/
def unplaced (cause : Cause) (internal : Bool) : Fault :=
  { cause, diagnosis := internal, internal }

def kind (f : Fault) : FaultKind := f.cause.kind

def message (f : Fault) : Message := f.cause.message

def hasCol (f : Fault) : Bool :=
  match f.kind with
  | .lexical | .parse => true
  | _ => false

/-- Attaches the line to blame, and possibly the part of it, unless a line is known already. -/
def locate (f : Fault) (line : String) (start stop : Option Int) : Fault :=
  if f.expr.isEmpty then
    let f := { f with expr := trimRight isNewline line }
    match start with
    | some i => { f with start := i, stop := stop.getD (i + 1) }
    | none => f
  else f

/-- Remembers a line of a file that the fault passed through. -/
def passing (f : Fault) (place : Location) : Fault :=
  { f with trace := f.trace ++ [place] }

end Fault

inductive Crash where
  | stackOverflow
  /-- A loop counter that stands still. -/
  | endlessLoop
  | integerTooLarge
  | tooManyDigits (count : Nat)
  /-- An infinite heading. -/
  | noDirection
  | nullInPath
  | nothingToPop
  | other (kind description : String)
  deriving DecidableEq

namespace Crash

def kind : Crash → String
  | .stackOverflow => "StackOverflow"
  | .endlessLoop => "EndlessLoop"
  | .integerTooLarge => "OverflowError"
  | .tooManyDigits _ | .noDirection | .nullInPath => "ValueError"
  | .nothingToPop => "IndexError"
  | .other kind _ => kind

def description : Crash → String
  | .stackOverflow => "calls are nested too deeply"
  | .endlessLoop => "the loop does not end"
  | .integerTooLarge => "int too large to convert to float"
  | .tooManyDigits count =>
    "Exceeds the limit (" ++ Number.natText Lexer.digitLimit ++
      " digits) for integer string conversion: value has " ++ Number.natText count ++
      " digits; use sys.set_int_max_str_digits() to increase the limit"
  | .noDirection => "math domain error"
  | .nullInPath => "embedded null byte"
  | .nothingToPop => "pop from empty list"
  | .other _ description => description

end Crash

inductive Failure where
  | fault (f : Fault)
  | crash (c : Crash)

def Misspelling.failure (line : String) : Misspelling → Failure
  | .strange c col => .fault (.strange c.toString col (trimRight isNewline line))
  | .tooManyDigits count => .crash (.tooManyDigits count)

def ParseError.failure (tokens : List Token) : ParseError → Failure
  | .tooLarge _ => .crash .integerTooLarge
  | e => .fault (.reading (.misread e) (some (e.col tokens : Nat)))

end TurtleLogo

/-!
# Built-in procedures

* `Builtin` : the procedures that every workspace has;
* `Builtin.table` : the names they are called by, `Builtin.ofName?` the one with a name.
-/

namespace TurtleLogo

inductive Builtin where
  | forward
  | back
  | right
  | left
  | clearScreen
  | home
  | clean
  | penDown
  | penUp
  | setXY
  | getXY
  | setX
  | setY
  | setHeading
  | heading
  | xCor
  | yCor
  | make
  | output
  | repeatTimes
  | forEach
  | list
  | lput
  | item
  | print
  | printProcedures
  | printNames
  | load
  | title
  | endTitle
  deriving DecidableEq, Repr

namespace Builtin

def table : List (String × Builtin) :=
  [ ("FD", .forward), ("FORWARD", .forward),
    ("BK", .back), ("BACK", .back),
    ("RT", .right), ("RIGHT", .right),
    ("LT", .left), ("LEFT", .left),
    ("CS", .clearScreen), ("CLEARSCREEN", .clearScreen),
    ("HOME", .home), ("CLEAN", .clean),
    ("PD", .penDown), ("PENDOWN", .penDown),
    ("PU", .penUp), ("PENUP", .penUp),
    ("SETXY", .setXY), ("GETXY", .getXY), ("SETX", .setX), ("SETY", .setY),
    ("SETHEADING", .setHeading), ("SETH", .setHeading), ("HEADING", .heading),
    ("XCOR", .xCor), ("YCOR", .yCor),
    ("MAKE", .make), ("OP", .output), ("OUTPUT", .output),
    ("REPEAT", .repeatTimes), ("FOR", .forEach),
    ("LIST", .list), ("LPUT", .lput), ("ITEM", .item),
    ("PR", .print), ("PRINT", .print), ("POPS", .printProcedures), ("PONS", .printNames),
    ("LOAD", .load), ("TO", .title), ("END", .endTitle) ]

def ofName? (name : String) : Option Builtin := table.lookup name

def isName (name : String) : Bool := (ofName? name).isSome

end Builtin

end TurtleLogo

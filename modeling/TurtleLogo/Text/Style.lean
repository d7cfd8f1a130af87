/-!
# Terminal styling

Text on a terminal is made bold or coloured by control sequences around it, also when it is empty. Colours are taken to
be on: the texts here are what is written to a terminal that shows them.

* `Colour` : the two colours of reports;
* `bold`, `bright` : a text in bold, and in bold and a colour.
-/

namespace TurtleLogo.Text

/-- The colour of an error and of a warning. -/
inductive Colour where
  | red
  | magenta
  deriving DecidableEq, Repr

def Colour.code : Colour → String
  | .red => "31"
  | .magenta => "35"

/-- A control sequence with the given selection. -/
def control (selection : String) : String :=
  "\x1b[" ++ selection ++ "m"

/-- A text in bold. -/
def bold (s : String) : String :=
  control "1" ++ s ++ control "0"

/-- A text in bold and in a colour. -/
def bright (colour : Colour) (s : String) : String :=
  control "1" ++ control colour.code ++ s ++ control "0"

end TurtleLogo.Text

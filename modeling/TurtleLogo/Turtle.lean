import TurtleLogo.Number.Remainder

/-!
# The turtle and its drawing

The turtle has a position, a heading in degrees that grows clockwise from north, and a pen. It draws a line whenever it
moves with the pen down.

* `direction` : the unit vector of a heading, exact on the axes; `direction?` refuses an infinite heading;
* `Stroke` : what appears on the canvas;
* `Turtle` : the turtle's state;
* `Motion` : what the turtle can be told to do;
* `Drawing` : a turtle and the canvas so far, with `Drawing.apply`;
* `WindowCall` : how strokes are shown in a window.
-/

namespace TurtleLogo

/-! ## Directions -/

def radiansPerDegree : Float := 3.141592653589793 / 180

/-- The unit vector of the heading `90 * n`. -/
def axis (n : Int) : Float × Float :=
  match (n % 4).toNat with
  | 0 => (0, 1)
  | 1 => (1, 0)
  | 2 => (0, -1)
  | _ => (-1, 0)

def direction (heading : Float) : Float × Float :=
  if Number.remainder heading 90 == 0 then axis (Number.truncate heading / 90)
  else
    let radians := heading * radiansPerDegree
    (radians.sin, radians.cos)

/-- The unit vector of a heading that is not infinite. -/
def direction? (heading : Float) : Option (Float × Float) :=
  if heading.isInf then none else some (direction heading)

/-! ## The turtle -/

/-- What appears on the canvas. -/
inductive Stroke where
  | line (x₁ y₁ x₂ y₂ : Float)
  | clear
  deriving DecidableEq

def Stroke.isLine : Stroke → Bool
  | .line .. => true
  | .clear => false

structure Turtle where
  x : Float := 0
  y : Float := 0
  heading : Float := 0
  penDown : Bool := true
  deriving DecidableEq

/-- What the turtle can be told to do. -/
inductive Motion where
  | forward (distance : Float)
  | back (distance : Float)
  | left (degrees : Float)
  | right (degrees : Float)
  | setPosition (x y : Float)
  | setHeading (degrees : Float)
  | penUp
  | penDown
  /-- To the origin, facing north. -/
  | home
  /-- Clears the canvas and leaves the turtle where it is. -/
  | clear
  deriving DecidableEq

def fullTurn : Float := 360

/-- Faces a heading, reduced to a full turn. -/
def Turtle.face (t : Turtle) (degrees : Float) : Turtle :=
  { t with heading := Number.wrap degrees fullTurn }

/-- A turtle and what it has drawn. -/
structure Drawing where
  turtle : Turtle := {}
  strokes : Array Stroke := #[]
  deriving DecidableEq

namespace Drawing

def moveTo (d : Drawing) (x y : Float) : Drawing where
  turtle := { d.turtle with x, y }
  strokes :=
    if d.turtle.penDown then d.strokes.push (.line d.turtle.x d.turtle.y x y) else d.strokes

def advance (d : Drawing) (distance : Float) : Drawing :=
  let (dx, dy) := direction d.turtle.heading
  d.moveTo (d.turtle.x + distance * dx) (d.turtle.y + distance * dy)

def face (d : Drawing) (degrees : Float) : Drawing :=
  { d with turtle := d.turtle.face degrees }

def setPen (d : Drawing) (down : Bool) : Drawing :=
  { d with turtle := { d.turtle with penDown := down } }

def apply (d : Drawing) : Motion → Drawing
  | .forward distance => d.advance distance
  | .back distance => d.advance (-distance)
  | .right degrees => d.face (d.turtle.heading + degrees)
  | .left degrees => d.face (d.turtle.heading + -degrees)
  | .setPosition x y => d.moveTo x y
  | .setHeading degrees => d.face degrees
  | .penUp => d.setPen false
  | .penDown => d.setPen true
  | .home => (d.moveTo 0 0).face 0
  | .clear => { d with strokes := d.strokes.push .clear }

def applyAll (d : Drawing) (motions : List Motion) : Drawing :=
  motions.foldl apply d

end Drawing

end TurtleLogo

import TurtleLogo.Number.Text
import TurtleLogo.Text.Quoted
import TurtleLogo.Turtle

/-!
# Showing a drawing in a window

The window is driven by calls on a screen and on a pen.

* `Argument`, `WindowCall` : a call and what it passes, with `WindowCall.line` as text;
* `openWindow`, `Stroke.windowCalls`, `waitForWindow` : the calls that open a window, show a stroke and keep the window
  open;
* `Drawing.windowCalls` : all calls for a drawing.
-/

namespace TurtleLogo

inductive Argument where
  | number (value : Float)
  | count (value : Nat)
  | text (value : String)

inductive WindowPart where
  | screen
  | pen

structure WindowCall where
  target : WindowPart
  method : String
  arguments : List Argument := []

/-- What a call passes, as text. -/
def Argument.spelled : Argument → String
  | .number x => Number.floatText x
  | .count n => Number.natText n
  | .text s => Text.quoted s

def WindowPart.name : WindowPart → String
  | .screen => "screen"
  | .pen => "pen"

def WindowCall.line (c : WindowCall) : String :=
  " ".intercalate (c.target.name :: c.method :: c.arguments.map Argument.spelled)

/-- Opens a black window with a green pen that is shown only when told. -/
def openWindow : List WindowCall :=
  [ { target := .screen, method := "setup", arguments := [.count 400, .count 400] },
    { target := .screen, method := "title", arguments := [.text "PC Logo"] },
    { target := .screen, method := "bgcolor", arguments := [.text "black"] },
    { target := .screen, method := "tracer", arguments := [.count 0] },
    { target := .pen, method := "hideturtle" },
    { target := .pen, method := "color", arguments := [.text "green"] } ]

def Stroke.windowCalls : Stroke → List WindowCall
  | .line x₁ y₁ x₂ y₂ =>
    [ { target := .pen, method := "penup" },
      { target := .pen, method := "goto", arguments := [.number x₁, .number y₁] },
      { target := .pen, method := "pendown" },
      { target := .pen, method := "goto", arguments := [.number x₂, .number y₂] },
      { target := .screen, method := "update" } ]
  | .clear =>
    [ { target := .pen, method := "clear" },
      { target := .screen, method := "update" } ]

/-- Keeps the window open until it is closed. -/
def waitForWindow : List WindowCall :=
  [ { target := .screen, method := "mainloop" } ]

def Drawing.windowCalls (d : Drawing) : List WindowCall :=
  openWindow ++ d.strokes.toList.flatMap Stroke.windowCalls

end TurtleLogo

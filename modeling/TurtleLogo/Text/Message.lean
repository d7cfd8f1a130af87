import TurtleLogo.Text.Style

/-!
# Messages

A message quotes parts of the program. They stand out in bold on a terminal, and plainly elsewhere.

* `Message` : text and quoted parts in order;
* `Message.plain`, `Message.styled` : the two ways to write a message;
* `Message.ofTemplate` : fills the holes of a template, which are an empty pair of braces; doubled braces stand for
  themselves.
-/

namespace TurtleLogo.Text

inductive Piece where
  /-- The message's own words. -/
  | words (s : String)
  /-- Something quoted from the program. -/
  | part (s : String)
  deriving DecidableEq, Repr

instance : Coe String Piece := ⟨.words⟩

abbrev Message := List Piece

namespace Message

def plain (m : Message) : String :=
  String.join (m.map fun
    | .words s => s
    | .part s => s)

/-- A message with its quoted parts in bold. -/
def styled (m : Message) : String :=
  String.join (m.map fun
    | .words s => s
    | .part s => bold s)

/-- Fills the holes of a template with `parts` in order. Surplus parts are ignored, and a hole without a part stays
empty. -/
def ofTemplate : List Char → List String → Message
  | '\x7b' :: '\x7b' :: rest, parts => .words "\x7b" :: ofTemplate rest parts
  | '\x7d' :: '\x7d' :: rest, parts => .words "\x7d" :: ofTemplate rest parts
  | '\x7b' :: '\x7d' :: rest, part :: parts => .part part :: ofTemplate rest parts
  | '\x7b' :: '\x7d' :: rest, [] => ofTemplate rest []
  | c :: rest, parts => .words c.toString :: ofTemplate rest parts
  | [], _ => []

end Message

end TurtleLogo.Text

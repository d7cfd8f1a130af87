/-!
# Runs of letters

Case mappings are regular over long stretches of letters: neighbours map to neighbours, or every second letter
maps to the letter beside it.

* `CaseRun` : such a stretch with the image of its first letter;
* `CaseRun.map` : the image of a code point under a list of runs.
-/

namespace TurtleLogo.Text

/-- The code points `first`, `first + step`, …, `last`, mapped in order from `target` on. -/
structure CaseRun where
  first : Nat
  last : Nat
  step : Nat
  target : Nat

def CaseRun.covers (run : CaseRun) (code : Nat) : Bool :=
  run.first ≤ code && code ≤ run.last && (code - run.first) % run.step == 0

/-- The image of a code point; a code point of no run stays. -/
def CaseRun.map (runs : List CaseRun) (code : Nat) : Nat :=
  match runs.find? (·.covers code) with
  | some run => run.target + (code - run.first)
  | none => code

end TurtleLogo.Text

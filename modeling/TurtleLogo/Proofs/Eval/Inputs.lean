import TurtleLogo.Proofs.Eval.Likeness
import TurtleLogo.Proofs.Turtle.Path

/-!
# Inputs while they are taken

To take an input is to evaluate the next expression off the queue, which may run anything, also what moves the turtle. A
procedure that looks at the turtle therefore sees another one before its input is taken than after.

* `pullValue_of_eval`, `pullNumber_of_eval` : what is taken, from what evaluating gives;
* `one_coordinate` : `SETX` and `SETY` look before, and put the turtle back to the other coordinate that they saw.
-/

namespace TurtleLogo

open Exec

section Taking

variable {ev : Evaluator} {w u : Workspace} {node : Node} {rest : List Node} {outer : List (List Node)}
  (hw : w.pending = (node :: rest) :: outer)

include hw

theorem pullValue_of_eval {v : Node} (hev : ev node { w with pending := rest :: outer } = (.ok (some v), u))
    (hv : ∀ x, v ≠ .output x) (caller : String) : pullValue ev caller w = (.ok v, u) := by
  have hnext : nextInput caller w = (.ok node, { w with pending := rest :: outer }) := by
    simp only [nextInput, hw]
  rw [pullValue_eq, bind_apply, hnext]
  dsimp only
  rw [valueOf, bind_apply, hev]
  cases v with
  | output x => exact absurd rfl (hv x)
  | _ => rfl

theorem pullNumber_of_eval {x : Float}
    (hev : ev node { w with pending := rest :: outer } = (.ok (some (.num x)), u)) (caller : String) :
    pullNumber ev caller w = (.ok x, u) := by
  rw [pullNumber, bind_apply, pullValue_of_eval hw hev (by simp)]
  rfl

end Taking

/-! ## One coordinate -/

/-- **One coordinate is set, and the other set back.** Evaluate `SETX` in front of any expression that gives a number,
whatever else evaluating the expression does. The turtle is then at this abscissa and at the ordinate from before the
expression was evaluated; all else is as evaluating the expression left it, the heading and the pen among it, but that a
line is drawn if the pen is down. So only the abscissa is set iff evaluating the expression leaves the ordinate as it
was. The same holds of `SETY` with the coordinates exchanged. -/
theorem one_coordinate {files : FileStore} {depth : Nat} {w u : Workspace} {node : Node} {rest : List Node}
    {outer : List (List Node)} {v : Float} (hw : w.pending = (node :: rest) :: outer)
    (hnode : eval files depth node { w with pending := rest :: outer } = (.ok (some (.num v)), u)) :
    (eval files (depth + 1) (.call "SETX") w =
        (.ok none, { u with drawing := u.drawing.moveTo v w.drawing.turtle.y }) ∧
      (u.drawing.moveTo v w.drawing.turtle.y).turtle =
        { u.drawing.turtle with x := v, y := w.drawing.turtle.y } ∧
      ((u.drawing.moveTo v w.drawing.turtle.y).turtle = { u.drawing.turtle with x := v } ↔
        u.drawing.turtle.y = w.drawing.turtle.y)) ∧
    (eval files (depth + 1) (.call "SETY") w =
        (.ok none, { u with drawing := u.drawing.moveTo w.drawing.turtle.x v }) ∧
      (u.drawing.moveTo w.drawing.turtle.x v).turtle =
        { u.drawing.turtle with x := w.drawing.turtle.x, y := v } ∧
      ((u.drawing.moveTo w.drawing.turtle.x v).turtle = { u.drawing.turtle with y := v } ↔
        u.drawing.turtle.x = w.drawing.turtle.x)) := by
  have hpull := pullNumber_of_eval hw hnode
  refine ⟨⟨?_, rfl, ?_⟩, ?_, rfl, ?_⟩
  · show Builtin.setX.run files (eval files depth) "SETX" w = _
    rw [Builtin.run, bind_apply]
    show (pullNumber (eval files depth) "SETX" >>= fun x => perform (.setPosition x w.drawing.turtle.y)) w = _
    rw [bind_apply, hpull]
    rfl
  · simp only [Drawing.moveTo, Turtle.mk.injEq, true_and, and_true]
    exact eq_comm
  · show Builtin.setY.run files (eval files depth) "SETY" w = _
    rw [Builtin.run, bind_apply]
    show (pullNumber (eval files depth) "SETY" >>= fun y => perform (.setPosition w.drawing.turtle.x y)) w = _
    rw [bind_apply, hpull]
    rfl
  · simp only [Drawing.moveTo, Turtle.mk.injEq, and_true]
    exact eq_comm

/-- A procedure that moves the turtle by 10 and outputs 5. -/
def moving : Procedure :=
  { name := "F", formals := [], body := [[.call "FD", .num 10], [.call "OP", .num 5]] }

/-- The input is the output of a procedure that has moved the turtle to the ordinate 10. -/
theorem one_coordinate_moving :
    let w : Workspace := { pending := [[.call "F"]], procedures := ⟨[("F", moving)]⟩ }
    let u := (eval {} 5 (.call "F") { w with pending := [[]] }).2
    eval {} 6 (.call "SETX") w = (.ok none, { u with drawing := u.drawing.moveTo 5 0 }) ∧
      eval {} 6 (.call "SETY") w = (.ok none, { u with drawing := u.drawing.moveTo 0 5 }) ∧
      u.drawing.turtle.position = (0, 10) := by
  intro w u
  have hnode : eval {} 5 (.call "F") { w with pending := [[]] } = (.ok (some (.num 5)), u) :=
    Prod.ext rfl rfl
  obtain ⟨⟨hx, -⟩, hy, -⟩ := one_coordinate rfl hnode
  exact ⟨hx, hy, by decide +kernel⟩

/-- Of a turtle that the input has moved to the ordinate 10, `SETX` sets both coordinates. -/
theorem one_coordinate_lost :
    let w : Workspace := { procedures := ⟨[("F", moving)]⟩ }
    (feed (eval {} 8) "F" w).2.drawing.turtle = { x := 0, y := 10 } ∧
      (feed (eval {} 8) "SETX F" w).2.drawing.turtle = { x := 5, y := 0 } := by
  decide +kernel

end TurtleLogo

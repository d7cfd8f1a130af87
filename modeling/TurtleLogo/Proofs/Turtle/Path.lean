import Mathlib.Data.List.Induction
import TurtleLogo.Turtle

/-!
# The drawing is the turtle's path

A move with the pen down draws one line, from where the turtle was to where it is. The lines of a drawing therefore hang
together, from the origin to where the turtle is now, but for the moves that it made with the pen up.

* `Motion.drawn` : what a motion adds to the canvas, `Drawing.strokes_apply`;
* `Drawing.lines` : the lines drawn, without what was cleared in between;
* `Drawing.starts`, `Drawing.stops` : the ends of the lines, with the origin before the first and the turtle's position
  behind the last, so that the `k`-th start belongs to the `k`-th stop;
* `MovedUp` : a move with the pen up between two lines;
* `drawing_is_path` : a start is where its stop is, unless there was such a move between them.
-/

namespace TurtleLogo

/-! ## One motion -/

def Motion.isMove : Motion → Bool
  | .forward _ | .back _ | .setPosition _ _ | .home => true
  | .left _ | .right _ | .setHeading _ | .penUp | .penDown | .clear => false

def Turtle.position (t : Turtle) : Float × Float := (t.x, t.y)

def Stroke.between (p q : Float × Float) : Stroke := .line p.1 p.2 q.1 q.2

/-- What a motion adds to the canvas, from the turtle before and the turtle after it. -/
def Motion.drawn (m : Motion) (before after : Turtle) : List Stroke :=
  match m with
  | .forward _ | .back _ | .setPosition _ _ | .home =>
    if before.penDown then [.between before.position after.position] else []
  | .clear => [.clear]
  | .left _ | .right _ | .setHeading _ | .penUp | .penDown => []

/-- The two ends of a line. -/
def Stroke.ends? : Stroke → Option ((Float × Float) × (Float × Float))
  | .line x₁ y₁ x₂ y₂ => some ((x₁, y₁), (x₂, y₂))
  | .clear => none

namespace Drawing

def lines (d : Drawing) : List ((Float × Float) × (Float × Float)) := d.strokes.toList.filterMap Stroke.ends?

theorem strokes_moveTo (d : Drawing) (x y : Float) :
    (d.moveTo x y).strokes.toList =
      d.strokes.toList ++ if d.turtle.penDown then [.between d.turtle.position (x, y)] else [] := by
  unfold moveTo
  cases d.turtle.penDown with
  | true => exact Array.toList_push
  | false => exact (List.append_nil _).symm

/-- **One motion** draws one line if it is a move with the pen down, clears the canvas once if it is told to, and else
leaves the canvas as it is. -/
theorem strokes_apply (d : Drawing) (m : Motion) :
    (d.apply m).strokes.toList = d.strokes.toList ++ m.drawn d.turtle (d.apply m).turtle := by
  cases m with
  | forward | back | setPosition => exact strokes_moveTo d _ _
  | home => exact strokes_moveTo d 0 0
  | clear => exact Array.toList_push
  | left | right | setHeading | penUp | penDown => exact (List.append_nil _).symm

theorem position_apply {m : Motion} (hm : m.isMove = false) (d : Drawing) :
    (d.apply m).turtle.position = d.turtle.position := by
  cases m with
  | forward | back | setPosition | home => cases hm
  | clear | left | right | setHeading | penUp | penDown => rfl

theorem lines_apply (d : Drawing) (m : Motion) :
    (d.apply m).lines =
      if m.isMove && d.turtle.penDown then d.lines ++ [(d.turtle.position, (d.apply m).turtle.position)]
      else d.lines := by
  rw [lines, strokes_apply, List.filterMap_append]
  cases m with
  | forward | back | setPosition | home =>
    simp only [Motion.drawn, Motion.isMove, Bool.true_and]
    cases d.turtle.penDown with
    | true => rfl
    | false => exact List.append_nil _
  | clear | left | right | setHeading | penUp | penDown => exact List.append_nil _

/-! ## The ends of the lines -/

def stops (d : Drawing) : List (Float × Float) := (0, 0) :: d.lines.map (·.2)

def starts (d : Drawing) : List (Float × Float) := d.lines.map (·.1) ++ [d.turtle.position]

theorem length_stops (d : Drawing) : d.stops.length = d.lines.length + 1 := by
  rw [stops, List.length_cons, List.length_map]

theorem length_starts (d : Drawing) : d.starts.length = d.lines.length + 1 := by
  rw [starts, List.length_append, List.length_map, List.length_singleton]

theorem stops_of_line {d : Drawing} {k : Nat} {l : (Float × Float) × (Float × Float)} (h : d.lines[k]? = some l) :
    d.stops[k + 1]? = some l.2 := by
  rw [stops, List.getElem?_cons_succ, List.getElem?_map, h, Option.map_some]

theorem starts_of_line {d : Drawing} {k : Nat} {l : (Float × Float) × (Float × Float)} (h : d.lines[k]? = some l) :
    d.starts[k]? = some l.1 := by
  have hk := (List.getElem?_eq_some_iff.mp h).1
  rw [starts, List.getElem?_append_left (by rwa [List.length_map]), List.getElem?_map, h, Option.map_some]

theorem starts_length (d : Drawing) : d.starts[d.lines.length]? = some d.turtle.position := by
  rw [starts, List.getElem?_append_right (Nat.le_of_eq (List.length_map _)), List.length_map, Nat.sub_self]
  rfl

theorem applyAll_append_singleton (d : Drawing) (motions : List Motion) (m : Motion) :
    d.applyAll (motions ++ [m]) = (d.applyAll motions).apply m := by
  rw [applyAll, List.foldl_append, List.foldl_cons, List.foldl_nil, ← applyAll]

end Drawing

/-! ## Many motions -/

open Drawing

/-- Among the motions of a new turtle there is a move with the pen up, made when `k` lines had been drawn. -/
def MovedUp (motions : List Motion) (k : Nat) : Prop :=
  ∃ before m after, motions = before ++ m :: after ∧ m.isMove = true ∧
    (applyAll {} before).turtle.penDown = false ∧ (applyAll {} before).lines.length = k

theorem MovedUp.append {motions : List Motion} {k : Nat} (h : MovedUp motions k) (m : Motion) :
    MovedUp (motions ++ [m]) k := by
  obtain ⟨before, m', after, rfl, hmove⟩ := h
  exact ⟨before, m', after ++ [m], by rw [List.append_assoc, List.cons_append], hmove⟩

/-- **The lines hang together.** -/
theorem stops_eq_starts (motions : List Motion) {k : Nat} {p q : Float × Float}
    (hp : (applyAll {} motions).stops[k]? = some p) (hq : (applyAll {} motions).starts[k]? = some q) :
    p = q ∨ MovedUp motions k := by
  induction motions using List.reverseRecOn generalizing p q with
  | nil =>
    cases k with
    | zero =>
      rw [← Option.some.inj hp, ← Option.some.inj hq]
      exact .inl rfl
    | succ k => cases hp
  | append_singleton motions m ih =>
    have hlines := lines_apply (applyAll {} motions) m
    have hlength := length_stops (applyAll {} motions)
    have hlength' := length_starts (applyAll {} motions)
    rw [applyAll_append_singleton] at hp hq
    rw [stops, hlines] at hp
    rw [starts, hlines] at hq
    -- A line closes the open end at the turtle and opens one there; a move with the pen up only moves the open end.
    cases hmove : m.isMove with
    | false =>
      rw [hmove, Bool.false_and, if_neg Bool.false_ne_true] at hp hq
      rw [position_apply hmove] at hq
      exact (ih hp hq).imp_right (·.append m)
    | true =>
      rw [hmove, Bool.true_and] at hp hq
      cases hpen : (applyAll {} motions).turtle.penDown with
      | true =>
        rw [if_pos hpen, List.map_append, ← List.cons_append, ← stops] at hp
        rw [if_pos hpen, List.map_append, List.map_singleton, ← starts] at hq
        by_cases hk : k < (applyAll {} motions).lines.length + 1
        · rw [List.getElem?_append_left (by omega)] at hp hq
          exact (ih hp hq).imp_right (·.append m)
        · rw [List.getElem?_append_right (by omega), hlength] at hp
          rw [List.getElem?_append_right (by omega), hlength'] at hq
          exact .inl (Option.some.inj (hp.symm.trans hq))
      | false =>
        rw [if_neg (by simp [hpen])] at hp hq
        by_cases hk : k < (applyAll {} motions).lines.length
        · refine (ih hp ?_).imp_right (·.append m)
          rw [List.getElem?_append_left (by rwa [List.length_map])] at hq
          rw [starts, List.getElem?_append_left (by rwa [List.length_map])]
          exact hq
        · have hbound := (List.getElem?_eq_some_iff.mp hp).1
          rw [← stops, hlength] at hbound
          exact .inr ⟨motions, m, [], rfl, hmove, hpen, by omega⟩

/-- **The drawing is the turtle's path.** Every motion of every drawing adds to the canvas what `Motion.drawn` says: one
line from the position before it to the position after it if it is a move with the pen down, a clearing if it is told to
clear, and nothing else.

Whatever a new turtle is told to do, a line starts where the line before it stops, unless the turtle moved with the pen
up between them; the first line starts at the origin, unless it moved so before it; and the last line stops where the
turtle is, unless it moved so after it. -/
theorem drawing_is_path :
    (∀ (d : Drawing) (m : Motion),
      (d.apply m).strokes.toList = d.strokes.toList ++ m.drawn d.turtle (d.apply m).turtle) ∧
    ∀ motions : List Motion,
      (∀ k l l', (applyAll {} motions).lines[k]? = some l → (applyAll {} motions).lines[k + 1]? = some l' →
        l.2 = l'.1 ∨ MovedUp motions (k + 1)) ∧
      (∀ l, (applyAll {} motions).lines.head? = some l → l.1 = (0, 0) ∨ MovedUp motions 0) ∧
      ∀ l, (applyAll {} motions).lines.getLast? = some l →
        l.2 = (applyAll {} motions).turtle.position ∨ MovedUp motions (applyAll {} motions).lines.length := by
  refine ⟨strokes_apply, fun motions => ⟨?_, ?_, ?_⟩⟩
  · intro k l l' hl hl'
    exact stops_eq_starts motions (stops_of_line hl) (starts_of_line hl')
  · intro l hl
    rw [List.head?_eq_getElem?] at hl
    exact (stops_eq_starts motions rfl (starts_of_line hl)).imp_left Eq.symm
  · intro l hl
    have hpos : 0 < (applyAll {} motions).lines.length := List.length_pos_of_mem (List.mem_of_getLast? hl)
    rw [List.getLast?_eq_getElem?] at hl
    have hstop := stops_of_line hl
    rw [Nat.sub_add_cancel hpos] at hstop
    exact stops_eq_starts motions hstop (starts_length _)

/-- Two lines that meet across a clearing, and a third that starts elsewhere: the turtle has moved with the pen up. -/
theorem drawing_is_path_lifted_pen :
    let motions : List Motion :=
      [.setPosition 1 2, .clear, .setPosition 3 4, .penUp, .home, .penDown, .setPosition 5 6]
    (applyAll {} motions).lines = [((0, 0), (1, 2)), ((1, 2), (3, 4)), ((0, 0), (5, 6))] ∧ MovedUp motions 2 := by
  intro motions
  have hlines : (applyAll {} motions).lines = [((0, 0), (1, 2)), ((1, 2), (3, 4)), ((0, 0), (5, 6))] := rfl
  obtain ⟨hnext, -, -⟩ := drawing_is_path.2 motions
  rw [hlines] at hnext
  refine ⟨hlines, (hnext 1 _ _ rfl rfl).resolve_left ?_⟩
  decide

end TurtleLogo

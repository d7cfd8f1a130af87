import TurtleLogo.Proofs.Eval.Likeness

/-!
# What no program reads

The pen, the canvas and the printed text are only ever written. Two workspaces that differ in nothing else are told apart
by no line: every line has the same outcome on both and prints the same on both, and they keep differing in nothing else.

* `Drawing.Aligned` : turtles at the same place that face the same way; `Drawing.Aligned.apply`;
* `Workspace.AlikeBut D` : workspaces that differ only in what was printed, and in their drawings as `D` allows;
* `unread` : such workspaces are alike, whatever is printed from then on;
* `feedInTurn`, `feedLog` : lines fed one after the other, and what became of each;
* `feed_alikeBut`, `feedLog_alikeBut` : one line, and all of them;
* `canvas_write_only` : the pen, the canvas and the printed text.
-/

namespace TurtleLogo

open Exec

/-! ## Drawings -/

structure Drawing.Aligned (d e : Drawing) : Prop where
  x : e.turtle.x = d.turtle.x
  y : e.turtle.y = d.turtle.y
  heading : e.turtle.heading = d.turtle.heading

namespace Drawing.Aligned

variable {d e : Drawing}

theorem moveTo (h : Aligned d e) (x y : Float) : Aligned (d.moveTo x y) (e.moveTo x y) := ⟨rfl, rfl, h.heading⟩

theorem face (h : Aligned d e) (degrees : Float) : Aligned (d.face degrees) (e.face degrees) := ⟨h.x, h.y, rfl⟩

theorem advance (h : Aligned d e) (distance : Float) : Aligned (d.advance distance) (e.advance distance) := by
  unfold Drawing.advance
  rw [h.x, h.y, h.heading]
  exact h.moveTo _ _

/-- Where a motion leads does not depend on the pen, nor on what was drawn. -/
theorem apply (h : Aligned d e) (m : Motion) : Aligned (d.apply m) (e.apply m) := by
  cases m with
  | forward distance => exact h.advance distance
  | back distance => exact h.advance (-distance)
  | right degrees | left degrees =>
    simp only [Drawing.apply, h.heading]
    exact h.face _
  | setPosition x y => exact h.moveTo x y
  | setHeading degrees => exact h.face degrees
  | home => exact (h.moveTo 0 0).face 0
  | penUp | penDown | clear => exact ⟨h.x, h.y, h.heading⟩

end Drawing.Aligned

/-- A relation between drawings that no motion breaks, and that keeps the turtles together. -/
structure Drawing.Steady (D : Drawing → Drawing → Prop) : Prop where
  apply : ∀ {d e} m, D d e → D (d.apply m) (e.apply m)
  aligned : ∀ {d e}, D d e → d.Aligned e

theorem Drawing.aligned_steady : Drawing.Steady Drawing.Aligned where
  apply m h := h.apply m
  aligned h := h

theorem Drawing.eq_steady : Drawing.Steady (· = ·) where
  apply m h := congrArg (·.apply m) h
  aligned h := by
    subst h
    exact ⟨rfl, rfl, rfl⟩

/-! ## Workspaces -/

/-- Workspaces that differ only in what was printed, and in their drawings as `D` allows. -/
structure Workspace.AlikeBut (D : Drawing → Drawing → Prop) (w v : Workspace) : Prop where
  globals : v.globals = w.globals
  frames : v.frames = w.frames
  pending : v.pending = w.pending
  procedures : v.procedures = w.procedures
  definition : v.definition = w.definition
  continuation : v.continuation = w.continuation
  drawing : D w.drawing v.drawing

section AlikeBut

variable {D : Drawing → Drawing → Prop} {w v : Workspace}

theorem Workspace.AlikeBut.assign (h : w.AlikeBut D v) (name : String) (value : Node) :
    (w.assign name value).AlikeBut D (v.assign name value) := by
  unfold Workspace.assign
  rw [h.frames, h.globals]
  split
  · split
    · exact { h with globals := rfl, frames := rfl }
    · exact { h with globals := rfl, frames := rfl }
  · exact { h with globals := rfl, frames := rfl }

theorem Workspace.AlikeBut.next? (h : w.AlikeBut D v) :
    (next? v).1 = (next? w).1 ∧ (next? w).2.AlikeBut D (next? v).2 ∧ (next? w).2.printed = w.printed ∧
      (next? v).2.printed = v.printed := by
  unfold Exec.next?
  rw [h.pending]
  split
  · exact ⟨rfl, { h with pending := rfl }, rfl, rfl⟩
  · exact ⟨rfl, h, rfl, rfl⟩

theorem Workspace.AlikeBut.nextInput (h : w.AlikeBut D v) (caller : String) :
    (nextInput caller v).1 = (nextInput caller w).1 ∧
      (nextInput caller w).2.AlikeBut D (nextInput caller v).2 ∧
      (nextInput caller w).2.printed = w.printed ∧ (nextInput caller v).2.printed = v.printed := by
  unfold TurtleLogo.nextInput
  rw [h.pending]
  split
  · exact ⟨rfl, h, rfl, rfl⟩
  · exact ⟨rfl, h, rfl, rfl⟩
  · exact ⟨rfl, { h with pending := rfl }, rfl, rfl⟩

theorem printed_assign (w : Workspace) (name : String) (value : Node) :
    (w.assign name value).printed = w.printed := by
  unfold Workspace.assign
  split
  · split <;> rfl
  · rfl

end AlikeBut

/-- Workspaces that differ only in what was printed and as `D` allows, and that have printed the same since the one had
printed `before` and the other `before'`. -/
def unread {D : Drawing → Drawing → Prop} (hD : Drawing.Steady D) (before before' : Array String) : Likeness where
  rel _ _ w v := w.AlikeBut D v ∧ ∃ text, w.printed = before ++ text ∧ v.printed = before' ++ text
  due _ _ := True
  due_success h := h
  due_opened h := h
  locals := by
    rintro q f w v ⟨h, -⟩
    unfold Workspace.locals
    rw [h.frames]
  globals h := h.1.globals
  procedures h := h.1.procedures
  definition h := h.1.definition
  continuation h := h.1.continuation
  position h := ⟨(hD.aligned h.1.drawing).x, (hD.aligned h.1.drawing).y, (hD.aligned h.1.drawing).heading⟩
  assign := by
    rintro q f w v name value ⟨h, hprinted⟩
    rw [printed_assign, printed_assign]
    exact ⟨h.assign name value, hprinted⟩
  draw := by
    rintro q f w v m ⟨h, hprinted⟩
    exact ⟨{ h with drawing := hD.apply m h.drawing }, hprinted⟩
  print := by
    rintro q f w v text ⟨h, printed, hw, hv⟩
    refine ⟨{ h with }, printed.push text, ?_, ?_⟩
    · rw [Workspace.print, hw, Array.append_push]
    · rw [Workspace.print, hv, Array.append_push]
  setContinuation := by
    rintro q f w v c ⟨h, hprinted⟩
    exact ⟨{ h with continuation := rfl }, hprinted⟩
  setDefinition := by
    rintro q f w v d ⟨h, hprinted⟩
    exact ⟨{ h with definition := rfl }, hprinted⟩
  setProcedures := by
    rintro q f w v t ⟨h, hprinted⟩
    exact ⟨{ h with procedures := rfl }, hprinted⟩
  openQueue := by
    rintro q f w v items ⟨h, hprinted⟩
    exact ⟨{ h with pending := congrArg (items :: ·) h.pending }, hprinted⟩
  closeQueue := by
    rintro q f w v ⟨h, hprinted⟩
    exact ⟨{ h with pending := congrArg List.tail h.pending }, hprinted⟩
  openFrame := by
    rintro q f w v locals ⟨h, hprinted⟩
    exact ⟨{ h with frames := congrArg (locals :: ·) h.frames, pending := congrArg ([] :: ·) h.pending }, hprinted⟩
  closeFrame := by
    rintro q f w v ⟨h, hprinted⟩
    exact ⟨{ h with frames := congrArg List.tail h.frames, pending := congrArg List.tail h.pending }, hprinted⟩
  next := by
    rintro q f w v ⟨h, hprinted⟩
    obtain ⟨houtcome, hspace, hw, hv⟩ := h.next?
    rw [hw, hv]
    exact ⟨houtcome, hspace, hprinted⟩
  more := by
    rintro q f w v ⟨h, -⟩
    unfold isMore
    rw [h.pending]
    split <;> rfl
  input := by
    rintro q f w v caller ⟨h, hprinted⟩ -
    obtain ⟨houtcome, hspace, hw, hv⟩ := h.nextInput caller
    rw [hw, hv]
    exact ⟨houtcome, hspace, hprinted⟩

/-! ## Line after line -/

/-- Lines fed one after the other, each with the files that there are then, whatever becomes of it. -/
def feedInTurn (depth : Nat) (inputs : List (FileStore × String)) (w : Workspace) : Workspace :=
  inputs.foldl (fun w input => (feed (eval input.1 depth) input.2 w).2) w

structure Fed where
  outcome : Except Failure Result
  printed : List String

def fed (depth : Nat) (input : FileStore × String) (w : Workspace) : Fed where
  outcome := (feed (eval input.1 depth) input.2 w).1
  printed := (feed (eval input.1 depth) input.2 w).2.printed.toList.drop w.printed.size

/-- What becomes of each of the lines that are fed one after the other. -/
def feedLog (depth : Nat) : List (FileStore × String) → Workspace → List Fed
  | [], _ => []
  | input :: inputs, w => fed depth input w :: feedLog depth inputs (feed (eval input.1 depth) input.2 w).2

section Feeding

variable {D : Drawing → Drawing → Prop} (hD : Drawing.Steady D) (depth : Nat)

include hD

theorem feed_alikeBut (files : FileStore) (line : String) {w v : Workspace} (h : w.AlikeBut D v) :
    (feed (eval files depth) line v).1 = (feed (eval files depth) line w).1 ∧
      (feed (eval files depth) line w).2.AlikeBut D (feed (eval files depth) line v).2 ∧
      ∃ text, (feed (eval files depth) line w).2.printed = w.printed ++ text ∧
        (feed (eval files depth) line v).2.printed = v.printed ++ text := by
  have hev (q f : Nat) (node : Node) : (unread hD w.printed v.printed).Same q f (eval files depth node) :=
    Likeness.eval_same files depth q f node
  have hrel : (unread hD w.printed v.printed).rel 0 0 w v := ⟨h, #[], by simp, by simp⟩
  obtain ⟨houtcome, hspace, hprinted⟩ := Likeness.Same.feed hev line w v hrel trivial
  exact ⟨houtcome, hspace, hprinted⟩

theorem fed_alikeBut (input : FileStore × String) {w v : Workspace} (h : w.AlikeBut D v) :
    fed depth input v = fed depth input w := by
  obtain ⟨houtcome, -, text, hw, hv⟩ := feed_alikeBut hD depth input.1 input.2 h
  simp only [fed, houtcome, hw, hv, Array.toList_append, Array.size_eq_length_toList, List.drop_left]

theorem feedLog_alikeBut (inputs : List (FileStore × String)) {w v : Workspace} (h : w.AlikeBut D v) :
    feedLog depth inputs v = feedLog depth inputs w ∧
      (feedInTurn depth inputs w).AlikeBut D (feedInTurn depth inputs v) := by
  induction inputs generalizing w v with
  | nil => exact ⟨rfl, h⟩
  | cons input inputs ih =>
    obtain ⟨-, hspace, -⟩ := feed_alikeBut hD depth input.1 input.2 h
    obtain ⟨hlog, hlast⟩ := ih hspace
    rw [feedLog, feedLog, fed_alikeBut hD depth input h, hlog]
    exact ⟨rfl, hlast⟩

end Feeding

theorem Workspace.AlikeBut.refl (w : Workspace) : w.AlikeBut (· = ·) w := ⟨rfl, rfl, rfl, rfl, rfl, rfl, rfl⟩

theorem printed_feed (depth : Nat) (input : FileStore × String) (w : Workspace) :
    (feed (eval input.1 depth) input.2 w).2.printed.toList = w.printed.toList ++ (fed depth input w).printed := by
  obtain ⟨-, -, text, hw, -⟩ := feed_alikeBut Drawing.eq_steady depth input.1 input.2 (.refl w)
  simp only [fed, hw, Array.toList_append, Array.size_eq_length_toList, List.drop_left]

theorem printed_feedInTurn (depth : Nat) (inputs : List (FileStore × String)) (w : Workspace) :
    (feedInTurn depth inputs w).printed.toList =
      w.printed.toList ++ (feedLog depth inputs w).flatMap Fed.printed := by
  induction inputs generalizing w with
  | nil => simp [feedInTurn, feedLog]
  | cons input inputs ih =>
    change (feedInTurn depth inputs (feed (eval input.1 depth) input.2 w).2).printed.toList = _
    rw [ih, printed_feed, feedLog, List.flatMap_cons, List.append_assoc]

/-- **The pen, the canvas and the printed text are write-only.** Feed the same lines, with the same files, to two
workspaces that differ in these only. Each line has the same outcome on both, a result or a failure, and prints the same
on both; what is printed comes behind what was printed before. Afterwards the two differ in nothing else either: they
agree on where the turtle stands and faces, on all variables, procedures, the open definition and the continuation. -/
theorem canvas_write_only (depth : Nat) (inputs : List (FileStore × String)) {w v : Workspace}
    (h : w.AlikeBut Drawing.Aligned v) :
    feedLog depth inputs v = feedLog depth inputs w ∧
    (feedInTurn depth inputs w).AlikeBut Drawing.Aligned (feedInTurn depth inputs v) ∧
    (feedInTurn depth inputs w).printed.toList =
      w.printed.toList ++ (feedLog depth inputs w).flatMap Fed.printed ∧
    (feedInTurn depth inputs v).printed.toList =
      v.printed.toList ++ (feedLog depth inputs w).flatMap Fed.printed := by
  obtain ⟨hlog, hspace⟩ := feedLog_alikeBut Drawing.aligned_steady depth inputs h
  refine ⟨hlog, hspace, printed_feedInTurn depth inputs w, ?_⟩
  rw [printed_feedInTurn, hlog]

/-- A turtle with its pen up on a canvas that was cleared, after something was printed, and a fresh one; both draw, and
print where they are. -/
theorem canvas_write_only_pen_up :
    let inputs : List (FileStore × String) := [({}, "FD 10"), ({}, "PRINT YCOR"), ({}, "FD")]
    let v : Workspace := { drawing := { turtle := { penDown := false }, strokes := #[.clear] }, printed := #["A"] }
    ({} : Workspace).AlikeBut Drawing.Aligned v ∧
    feedLog 4 inputs v = feedLog 4 inputs {} ∧
    (feedInTurn 4 inputs {}).AlikeBut Drawing.Aligned (feedInTurn 4 inputs v) ∧
    (feedInTurn 4 inputs v).printed.toList = "A" :: (feedLog 4 inputs {}).flatMap Fed.printed := by
  intro inputs v
  have h : ({} : Workspace).AlikeBut Drawing.Aligned v := ⟨rfl, rfl, rfl, rfl, rfl, rfl, rfl, rfl, rfl⟩
  obtain ⟨hlog, hspace, -, hprinted⟩ := canvas_write_only 4 inputs h
  exact ⟨h, hlog, hspace, hprinted⟩

end TurtleLogo

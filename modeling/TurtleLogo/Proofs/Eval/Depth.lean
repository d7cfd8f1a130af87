import TurtleLogo.Eval

/-!
# How deeply evaluations may be nested

An evaluation that stays within a bound on the nesting does the same under every larger bound: running into the bound
stops everything, and nothing catches it.

* `Exec.Deepens x y` : `y` does what `x` does, unless `x` runs into its bound;
* `evaluate_deepens` : one node, given evaluators for the nodes inside it of which one deepens the other;
* `eval_deepens` : every node, under two bounds.
-/

namespace TurtleLogo

namespace Exec

variable {α β : Type}

/-- `y` does what `x` does, unless `x` is nested too deeply. -/
def Deepens (x y : Exec α) : Prop := ∀ w, (x w).1 ≠ .error (.crash .stackOverflow) → y w = x w

theorem Deepens.refl (x : Exec α) : Deepens x x := fun _ _ => rfl

theorem Deepens.bind {x y : Exec α} {f g : α → Exec β} (hx : Deepens x y) (hf : ∀ a, Deepens (f a) (g a)) :
    Deepens (x >>= f) (y >>= g) := by
  intro w hw
  rw [bind_apply] at hw
  rw [bind_apply, bind_apply]
  rcases h : x w with ⟨e | a, w'⟩
  · have he : (x w).1 ≠ .error (.crash .stackOverflow) := by
      rw [h] at hw ⊢
      rintro ⟨⟩
      exact hw rfl
    rw [hx w he, h]
  · have ha : (x w).1 ≠ .error (.crash .stackOverflow) := by
      rw [h]
      exact nofun
    rw [h] at hw
    rw [hx w ha, h]
    exact hf a w' hw

theorem Deepens.around {enter leave : Workspace → Workspace} {x y : Exec α} (h : Deepens x y) :
    Deepens (around enter leave x) (around enter leave y) := by
  intro w hw
  unfold Exec.around at hw ⊢
  rw [h (enter w) hw]

theorem Deepens.withQueue (items : List Node) {x y : Exec α} (h : Deepens x y) :
    Deepens (withQueue items x) (withQueue items y) := h.around

theorem Deepens.withFrame (frame : Table Node) {x y : Exec α} (h : Deepens x y) :
    Deepens (withFrame frame x) (withFrame frame y) := h.around

end Exec

open Exec

section Runs

variable {ev ev' : Evaluator} (hev : ∀ node, Deepens (ev node) (ev' node))

include hev

/-! ## Inputs and sequences -/

theorem valueOf_deepens (caller : String) (node : Node) : Deepens (valueOf ev caller node) (valueOf ev' caller node) :=
  .bind (hev node) fun _ => .refl _

theorem numberOf_deepens (caller : String) (node : Node) :
    Deepens (numberOf ev caller node) (numberOf ev' caller node) :=
  .bind (valueOf_deepens hev caller node) fun _ => .refl _

theorem pullValue_deepens (caller : String) : Deepens (pullValue ev caller) (pullValue ev' caller) := by
  refine .bind (.refl _) fun w => ?_
  split
  · exact .refl _
  · refine .bind (.refl _) fun node? => ?_
    cases node? with
    | none => exact .refl _
    | some node => exact valueOf_deepens hev caller node

theorem pullNumber_deepens (caller : String) : Deepens (pullNumber ev caller) (pullNumber ev' caller) :=
  .bind (pullValue_deepens hev caller) fun _ => .refl _

theorem pullWord_deepens (caller : String) : Deepens (pullWord ev caller) (pullWord ev' caller) :=
  .bind (pullValue_deepens hev caller) fun _ => .refl _

theorem pullList_deepens (caller : String) : Deepens (pullList ev caller) (pullList ev' caller) :=
  .bind (pullValue_deepens hev caller) fun _ => .refl _

theorem statements_deepens (n : Nat) : Deepens (statements ev n) (statements ev' n) := by
  induction n with
  | zero => exact .refl _
  | succ n ih =>
    refine .bind (.refl _) fun node? => ?_
    cases node? with
    | none => exact .refl _
    | some node =>
      refine .bind (hev node) fun r => ?_
      cases r with
      | none => exact ih
      | some r => exact .refl _

theorem evalLine_deepens (items : List Node) : Deepens (evalLine ev items) (evalLine ev' items) :=
  .withQueue items (.bind (statements_deepens hev items.length) fun _ => .refl _)

theorem evalGroup_deepens (items : List Node) : Deepens (evalGroup ev items) (evalGroup ev' items) := by
  refine .withQueue items (.bind (.refl _) fun node? => ?_)
  cases node? with
  | none => exact .refl _
  | some node => exact hev node

theorem instructions_deepens (n : Nat) : Deepens (instructions ev n) (instructions ev' n) := by
  induction n with
  | zero => exact .refl _
  | succ n ih =>
    refine .bind (.refl _) fun node? => ?_
    cases node? with
    | none => exact .refl _
    | some node =>
      refine .bind (hev node) fun r => ?_
      split
      · exact ih
      · exact .refl _
      · exact .refl _

theorem runBlock_deepens (items : List Node) : Deepens (runBlock ev items) (runBlock ev' items) :=
  .withQueue items (instructions_deepens hev items.length)

theorem operands_deepens (caller : String) (n : Nat) : Deepens (operands ev caller n) (operands ev' caller n) := by
  induction n with
  | zero => exact .refl _
  | succ n ih =>
    refine .bind (.refl _) fun node? => ?_
    cases node? with
    | none => exact .refl _
    | some node => exact .bind (numberOf_deepens hev caller node) fun _ => .bind ih fun _ => .refl _

theorem evalOperands_deepens (caller : String) (items : List Node) :
    Deepens (evalOperands ev caller items) (evalOperands ev' caller items) :=
  .withQueue items (operands_deepens hev caller items.length)

/-! ## Lines and files -/

theorem runLine_deepens (items : List Node) : Deepens (runLine ev items) (runLine ev' items) :=
  .bind (hev (.line items)) fun _ => .refl _

theorem handleLine_deepens (text : String) (items : List Node) :
    Deepens (handleLine ev text items) (handleLine ev' text items) := by
  refine .bind (.refl _) fun w => ?_
  split
  · exact .refl _
  · split
    · exact .refl _
    · exact runLine_deepens hev items

theorem feed_deepens (line : String) : Deepens (feed ev line) (feed ev' line) := by
  refine .bind (.refl _) fun ⟨text, items?⟩ => ?_
  cases items? with
  | none => exact .refl _
  | some items => exact handleLine_deepens hev text items

theorem feedLineOf_deepens (path : String) (number : Nat) (line : String) :
    Deepens (feedLineOf ev path number line) (feedLineOf ev' path number line) := by
  intro w hw
  have hfeed : (feed ev line w).1 ≠ .error (.crash .stackOverflow) := by
    intro h
    rcases hf : feed ev line w with ⟨r, w'⟩
    rw [hf] at h
    cases h
    exact hw (by rw [feedLineOf, hf])
  rw [feedLineOf, feedLineOf, feed_deepens hev line w hfeed]

theorem feedLines_deepens (path : String) (lines : List String) (number : Nat) :
    Deepens (feedLines ev path number lines) (feedLines ev' path number lines) := by
  induction lines generalizing number with
  | nil => exact .refl _
  | cons line lines ih =>
    refine .bind (feedLineOf_deepens hev path number line) fun r => ?_
    cases r with
    | some v => exact .bind (.refl _) fun _ => ih (number + 1)
    | none => exact ih (number + 1)

theorem feedText_deepens (path : String) (text : FileText) :
    Deepens (feedText ev path text) (feedText ev' path text) := by
  cases text with
  | lines lines => exact feedLines_deepens hev path lines 1
  | broken lines => exact .bind (feedLines_deepens hev path lines 1) fun _ => .refl _

omit hev in
theorem inFile_deepens {x y : Exec Unit} (h : Deepens x y) : Deepens (inFile x) (inFile y) := by
  intro w hw
  have hbody : (x { w with continuation := {} }).1 ≠ .error (.crash .stackOverflow) := by
    intro hx
    rcases hb : x { w with continuation := {} } with ⟨r, w'⟩
    rw [hb] at hx
    cases hx
    exact hw (by rw [inFile, hb])
  rw [inFile, inFile, h _ hbody]

theorem load_deepens (files : FileStore) (name : String) : Deepens (load files ev name) (load files ev' name) :=
  .bind (.refl _) fun path => .bind (inFile_deepens (feedText_deepens hev path (files.read path))) fun _ => .refl _

/-! ## Built-in procedures -/

theorem repeatBlock_deepens (block : List Node) (n : Nat) :
    Deepens (repeatBlock ev block n) (repeatBlock ev' block n) := by
  induction n with
  | zero => exact .refl _
  | succ n ih =>
    refine .bind (runBlock_deepens hev block) fun r => ?_
    cases r with
    | some r => exact .refl _
    | none => exact ih

theorem countBlock_deepens (var : String) (block : List Node) (step stop : Float) (n : Nat) (current : Float) :
    Deepens (countBlock ev var block step stop n current) (countBlock ev' var block step stop n current) := by
  induction n generalizing current with
  | zero => exact .refl _
  | succ n ih =>
    rw [countBlock, countBlock]
    by_cases h : if 0 < step then current ≤ stop else stop ≤ current
    · rw [if_pos h, if_pos h]
      refine .bind (.refl _) fun _ => .bind (runBlock_deepens hev block) fun r => ?_
      cases r with
      | some r => exact .refl _
      | none => exact ih (current + step)
    · rw [if_neg h, if_neg h]
      exact .refl _

/-- The built-in procedures evaluate nothing but inputs, blocks and the lines of files. -/
theorem builtin_deepens (files : FileStore) (name : String) (b : Builtin) :
    Deepens (b.run files ev name) (b.run files ev' name) := by
  have number := pullNumber_deepens hev name
  have value := pullValue_deepens hev name
  have word := pullWord_deepens hev name
  have list := pullList_deepens hev name
  cases b with
  | clearScreen | home | clean | penDown | penUp | getXY | xCor | yCor | heading | printProcedures | printNames
  | title | endTitle => exact .refl _
  | forward | back | right | left | setHeading => exact .bind number fun _ => .refl _
  | setXY => exact .bind number fun _ => .bind number fun _ => .refl _
  | setX | setY => exact .bind (.refl _) fun _ => .bind number fun _ => .refl _
  | make => exact .bind word fun _ => .bind value fun _ => .refl _
  | output | print => exact .bind value fun _ => .refl _
  | repeatTimes =>
    refine .bind number fun _ => .bind (.refl _) fun _ => ?_
    exact .bind list fun block => repeatBlock_deepens hev block _
  | forEach =>
    refine .bind word fun var => .bind number fun _ => .bind (.refl _) fun start => ?_
    refine .bind number fun _ => .bind (.refl _) fun stop => ?_
    exact .bind list fun block => countBlock_deepens hev var block _ stop _ start
  | list => exact .bind value fun _ => .bind value fun _ => .refl _
  | lput => exact .bind value fun _ => .bind list fun _ => .refl _
  | item => exact .bind number fun _ => .bind value fun _ => .refl _
  | load =>
    refine .bind word fun file => ?_
    exact .bind (β := Option Node) (load_deepens hev files file) fun _ => .refl _

/-! ## Procedures and nodes -/

theorem bindInputs_deepens (caller : String) (formals : List String) (frame : Table Node) :
    Deepens (bindInputs ev caller formals frame) (bindInputs ev' caller formals frame) := by
  induction formals generalizing frame with
  | nil => exact .refl _
  | cons formal formals ih => exact .bind (pullValue_deepens hev caller) fun v => ih (frame.insert formal v)

theorem runBody_deepens (name : String) (lines : List (List Node)) :
    Deepens (runBody ev name lines) (runBody ev' name lines) := by
  induction lines with
  | nil => exact .refl _
  | cons line lines ih =>
    refine .bind (hev (.line line)) fun r => ?_
    split
    · exact ih
    · exact .refl _
    · exact .refl _

theorem call_deepens (files : FileStore) (name : String) : Deepens (call files ev name) (call files ev' name) := by
  unfold call
  split
  · exact builtin_deepens hev files name _
  · refine .bind (.refl _) fun w => ?_
    split
    · next p _ =>
      refine .bind (bindInputs_deepens hev p.name p.formals {}) fun frame => ?_
      exact .withFrame frame (runBody_deepens hev p.name p.body)
    · exact .refl _

theorem evalBinary_deepens (op : Operator) (left right : Node) :
    Deepens (evalBinary ev op left right) (evalBinary ev' op left right) := by
  unfold evalBinary
  split
  · exact .bind (valueOf_deepens hev op.symbol left) fun _ => .bind (valueOf_deepens hev op.symbol right) fun _ => .refl _
  · exact .bind (numberOf_deepens hev op.symbol left) fun _ =>
      .bind (numberOf_deepens hev op.symbol right) fun _ => .refl _

/-- One step of the evaluator goes as deep as the evaluator for the nodes inside. -/
theorem evaluate_deepens (files : FileStore) (node : Node) :
    Deepens (evaluate files ev node) (evaluate files ev' node) := by
  cases node with
  | num | word | list | var | output | empty => exact .refl _
  | call name => exact call_deepens hev files name
  | line items => exact evalLine_deepens hev items
  | group items => exact evalGroup_deepens hev items
  | neg operand => exact .bind (numberOf_deepens hev _ operand) fun _ => .refl _
  | binary op left right => exact .bind (evalBinary_deepens hev op left right) fun _ => .refl _
  | nary op items => exact .bind (evalOperands_deepens hev op.symbol items) fun _ => .refl _

end Runs

/-- **A larger bound changes nothing** for an evaluation that stays within the smaller one. -/
theorem eval_deepens (files : FileStore) {depth deeper : Nat} (h : depth ≤ deeper) (node : Node) :
    Deepens (eval files depth node) (eval files deeper node) := by
  induction depth generalizing deeper node with
  | zero => exact fun _ hw => absurd rfl hw
  | succ depth ih =>
    obtain ⟨deeper, rfl⟩ : ∃ n, deeper = n + 1 := ⟨deeper - 1, by omega⟩
    exact evaluate_deepens (ih (Nat.le_of_succ_le_succ h)) files node

end TurtleLogo

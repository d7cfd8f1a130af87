import TurtleLogo.Eval

/-!
# What every run keeps

The evaluator touches a workspace in a dozen ways only. A relation between the workspace before and the workspace
after that each of them respects is respected by every run, whatever its outcome.

* `Exec.Fixed x` : `x` has one outcome and touches nothing;
* `Exec.Keeps R x` : running `x` relates the workspace before to the workspace after by `R`;
* `Exec.Steady R` : `R` is a preorder, and holds across every step of evaluating that touches a workspace;
* `Exec.Stable R` : it also holds across every step of feeding lines that does;
* `Exec.Keeps.bind`, `Exec.Keeps.withQueue`, `Exec.Keeps.withFrame` : how runs are put together;
* `evaluate_keeps` : one node, given an evaluator that keeps `R`; `eval_steady` : every node, if loading keeps `R`;
* `eval_keeps`, `feed_keeps`, `load_keeps` : every node at every depth, every line and every file;
* `Reachable` : the workspaces that feeding lines leads to, with `Reachable.keeps`.
-/

namespace TurtleLogo

namespace Exec

variable {α β : Type} {R : Workspace → Workspace → Prop}

def Fixed (x : Exec α) : Prop := ∃ r, ∀ w, x w = (r, w)

theorem Fixed.pure (a : α) : Fixed (Pure.pure a : Exec α) := ⟨.ok a, fun _ => rfl⟩

theorem Fixed.stop (f : Failure) : Fixed (stop f : Exec α) := ⟨.error f, fun _ => rfl⟩

theorem Fixed.fail (cause : Cause) : Fixed (fail cause : Exec α) := Fixed.stop _

theorem Fixed.ofExcept (e : Except Cause α) : Fixed (ofExcept e) := by
  cases e with
  | ok a => exact Fixed.pure a
  | error cause => exact Fixed.fail cause

/-- Running `x` relates the workspace before to the workspace after by `R`, whatever the outcome. -/
def Keeps (R : Workspace → Workspace → Prop) (x : Exec α) : Prop := ∀ w, R w (x w).2

/-- A preorder that holds across every step of evaluating that touches a workspace, the lines of loaded files apart. -/
structure Steady (R : Workspace → Workspace → Prop) : Prop where
  refl : ∀ w, R w w
  trans : ∀ {u v w}, R u v → R v w → R u w
  next : ∀ {w node rest outer}, w.pending = (node :: rest) :: outer → R w { w with pending := rest :: outer }
  /-- Opening a queue, running something, and closing the queue. -/
  queue : ∀ {w w'} items, R { w with pending := items :: w.pending } w' →
    R w { w' with pending := w'.pending.tail }
  /-- Opening a frame with an empty queue, running something, and closing both. -/
  frame : ∀ {w w'} locals, R { w with frames := locals :: w.frames, pending := [] :: w.pending } w' →
    R w { w' with frames := w'.frames.tail, pending := w'.pending.tail }
  assign : ∀ w name value, R w (w.assign name value)
  draw : ∀ w m, R w { w with drawing := w.drawing.apply m }
  print : ∀ w text, R w (w.print text)

/-- A preorder that holds across every step that touches a workspace. -/
structure Stable (R : Workspace → Workspace → Prop) : Prop extends Steady R where
  continuation : ∀ w c, R w { w with continuation := c }
  title : ∀ {w p inputs}, titled inputs = .ok p → R w { w with definition := some p }
  addLine : ∀ {w p} items text, w.definition = some p →
    R w { w with definition := some (p.addLine items text) }
  drop : ∀ w, R w { w with definition := none }
  define : ∀ {w p}, Builtin.isName p.name = false →
    R w { w with procedures := w.procedures.insert p.name p }

instance : Coe (Stable R) (Steady R) := ⟨Stable.toSteady⟩

theorem Steady.printAll (hR : Steady R) (lines : List String) (w : Workspace) : R w (w.printAll lines) := by
  induction lines generalizing w with
  | nil => exact hR.refl w
  | cons line lines ih => exact hR.trans (hR.print w line) (ih (w.print line))

/-! ## How runs are put together -/

theorem Fixed.keeps (hR : Steady R) {x : Exec α} (h : Fixed x) : Keeps R x := by
  obtain ⟨r, hr⟩ := h
  intro w
  rw [hr]
  exact hR.refl w

theorem Keeps.pure (hR : Steady R) (a : α) : Keeps R (Pure.pure a : Exec α) := hR.refl

theorem Keeps.bind_at (hR : Steady R) {x : Exec α} {f : α → Exec β} {w : Workspace} (hx : R w (x w).2)
    (hf : ∀ a, Keeps R (f a)) : R w ((x >>= f) w).2 := by
  rw [bind_apply]
  rcases h : x w with ⟨r, w'⟩
  rw [h] at hx
  cases r with
  | ok a => exact hR.trans hx (hf a w')
  | error e => exact hx

theorem Keeps.bind (hR : Steady R) {x : Exec α} {f : α → Exec β} (hx : Keeps R x) (hf : ∀ a, Keeps R (f a)) :
    Keeps R (x >>= f) := fun w => Keeps.bind_at hR (hx w) hf

theorem Keeps.fail (hR : Steady R) (cause : Cause) : Keeps R (fail cause : Exec α) := hR.refl

theorem Keeps.get (hR : Steady R) : Keeps R get := hR.refl

theorem Keeps.withQueue (hR : Steady R) (items : List Node) {body : Exec α} (h : Keeps R body) :
    Keeps R (withQueue items body) := fun w => hR.queue items (h { w with pending := items :: w.pending })

theorem Keeps.withFrame (hR : Steady R) (locals : Table Node) {body : Exec α} (h : Keeps R body) :
    Keeps R (withFrame locals body) :=
  fun w => hR.frame locals (h { w with frames := locals :: w.frames, pending := [] :: w.pending })

theorem Keeps.next? (hR : Steady R) : Keeps R next? := by
  intro w
  unfold Exec.next?
  split
  · next h => exact hR.next h
  · exact hR.refl w

theorem Keeps.isMore (hR : Steady R) : Keeps R isMore := by
  intro w
  unfold Exec.isMore
  split <;> exact hR.refl w

theorem Keeps.assign (hR : Steady R) (name : String) (value : Node) :
    Keeps R (modify (·.assign name value)) := fun w => hR.assign w name value

theorem Keeps.print (hR : Steady R) (text : String) : Keeps R (print text) := fun w => hR.print w text

end Exec

open Exec

/-! ## Checks -/

theorem expectValue_fixed (caller : String) (node : Node) (r : Result) : Fixed (expectValue caller node r) := by
  unfold expectValue
  split <;> exact ⟨_, fun _ => rfl⟩

theorem expectNumber_fixed (caller : String) (v : Node) : Fixed (expectNumber caller v) := by
  unfold expectNumber
  split <;> exact ⟨_, fun _ => rfl⟩

theorem expectWord_fixed (caller : String) (v : Node) : Fixed (expectWord caller v) := by
  unfold expectWord
  split <;> exact ⟨_, fun _ => rfl⟩

theorem expectList_fixed (caller : String) (v : Node) : Fixed (expectList caller v) := by
  unfold expectList
  split <;> exact ⟨_, fun _ => rfl⟩

theorem expectFinite_fixed (caller : String) (x : Float) : Fixed (expectFinite caller x) := by
  unfold expectFinite
  split <;> exact ⟨_, fun _ => rfl⟩

theorem resolve_fixed (files : FileStore) (name : String) : Fixed (resolve files name) := by
  unfold resolve
  split <;> exact ⟨_, fun _ => rfl⟩

/-! ## What happens to a line -/

theorem handleLine_of_some (ev : Evaluator) (text : String) (items : List Node) {w : Workspace} {p : Procedure}
    (hp : w.definition = some p) :
    handleLine ev text items w = (collect p text items >>= fun _ => pure none) w := by
  unfold handleLine
  rw [bind_apply]
  simp only [Exec.get, hp]

theorem handleLine_of_none (ev : Evaluator) (text : String) (items : List Node) {w : Workspace}
    (hp : w.definition = none) :
    handleLine ev text items w =
      if startsWith "TO" items then (beginDefinition items.tail >>= fun _ => pure none) w
      else runLine ev items w := by
  unfold handleLine
  rw [bind_apply]
  simp only [Exec.get, hp]
  split <;> rfl

section Evaluating

variable {R : Workspace → Workspace → Prop} (hR : Steady R)

include hR

/-! ## Inputs and sequences -/

variable {ev : Evaluator} (hev : ∀ node, Keeps R (ev node))

include hev

theorem valueOf_keeps (caller : String) (node : Node) : Keeps R (valueOf ev caller node) :=
  Keeps.bind hR (hev node) fun r => (expectValue_fixed caller node r).keeps hR

theorem numberOf_keeps (caller : String) (node : Node) : Keeps R (numberOf ev caller node) :=
  Keeps.bind hR (valueOf_keeps hR hev caller node) fun v => (expectNumber_fixed caller v).keeps hR

theorem pullValue_keeps (caller : String) : Keeps R (pullValue ev caller) := by
  refine Keeps.bind hR (Keeps.get hR) fun w => ?_
  split
  · exact Keeps.fail hR _
  · refine Keeps.bind hR (Keeps.next? hR) fun node? => ?_
    cases node? with
    | none => exact Keeps.fail hR _
    | some node => exact valueOf_keeps hR hev caller node

theorem pullNumber_keeps (caller : String) : Keeps R (pullNumber ev caller) :=
  Keeps.bind hR (pullValue_keeps hR hev caller) fun v => (expectNumber_fixed caller v).keeps hR

theorem pullWord_keeps (caller : String) : Keeps R (pullWord ev caller) :=
  Keeps.bind hR (pullValue_keeps hR hev caller) fun v => (expectWord_fixed caller v).keeps hR

theorem pullList_keeps (caller : String) : Keeps R (pullList ev caller) :=
  Keeps.bind hR (pullValue_keeps hR hev caller) fun v => (expectList_fixed caller v).keeps hR

theorem statements_keeps (n : Nat) : Keeps R (statements ev n) := by
  induction n with
  | zero => exact Keeps.pure hR none
  | succ n ih =>
    refine Keeps.bind hR (Keeps.next? hR) fun node? => ?_
    cases node? with
    | none => exact Keeps.pure hR none
    | some node =>
      refine Keeps.bind hR (hev node) fun r => ?_
      cases r with
      | none => exact ih
      | some r => exact Keeps.pure hR (some r)

theorem evalLine_keeps (items : List Node) : Keeps R (evalLine ev items) := by
  refine Keeps.withQueue hR items (Keeps.bind hR (statements_keeps hR hev items.length) fun r => ?_)
  split
  · exact Keeps.pure hR none
  · exact Keeps.pure hR _
  · refine Keeps.bind hR (Keeps.isMore hR) fun more => ?_
    split
    · exact Keeps.fail hR _
    · exact Keeps.pure hR _

theorem evalGroup_keeps (items : List Node) : Keeps R (evalGroup ev items) := by
  refine Keeps.withQueue hR items (Keeps.bind hR (Keeps.next? hR) fun node? => ?_)
  cases node? with
  | none => exact Keeps.pure hR none
  | some node => exact hev node

theorem instructions_keeps (n : Nat) : Keeps R (instructions ev n) := by
  induction n with
  | zero => exact Keeps.pure hR none
  | succ n ih =>
    refine Keeps.bind hR (Keeps.next? hR) fun node? => ?_
    cases node? with
    | none => exact Keeps.pure hR none
    | some node =>
      refine Keeps.bind hR (hev node) fun r => ?_
      split
      · exact ih
      · exact Keeps.pure hR _
      · exact Keeps.fail hR _

theorem runBlock_keeps (items : List Node) : Keeps R (runBlock ev items) :=
  Keeps.withQueue hR items (instructions_keeps hR hev items.length)

theorem operands_keeps (caller : String) (n : Nat) : Keeps R (operands ev caller n) := by
  induction n with
  | zero => exact Keeps.pure hR []
  | succ n ih =>
    refine Keeps.bind hR (Keeps.next? hR) fun node? => ?_
    cases node? with
    | none => exact Keeps.pure hR []
    | some node =>
      refine Keeps.bind hR (numberOf_keeps hR hev caller node) fun x => ?_
      exact Keeps.bind hR ih fun xs => Keeps.pure hR (x :: xs)

theorem evalOperands_keeps (caller : String) (items : List Node) : Keeps R (evalOperands ev caller items) :=
  Keeps.withQueue hR items (operands_keeps hR hev caller items.length)

theorem runLine_keeps (items : List Node) : Keeps R (runLine ev items) := by
  refine Keeps.bind hR (hev (.line items)) fun r => ?_
  split
  · exact Keeps.fail hR _
  · exact Keeps.pure hR _

end Evaluating

section Feeding

variable {R : Workspace → Workspace → Prop} (hR : Stable R)

include hR

/-! ## Lines -/

variable {ev : Evaluator} (hev : ∀ node, Keeps R (ev node))

include hev

omit hev in
theorem readLine_keeps (line : String) : Keeps R (readLine line) := by
  intro w
  unfold readLine
  dsimp only
  split
  · exact hR.continuation w {}
  · split
    · exact hR.continuation w _
    · split <;> exact hR.continuation w {}

omit hev in
theorem beginDefinition_keeps (inputs : List Node) : Keeps R (beginDefinition inputs) := by
  intro w
  unfold beginDefinition
  cases h : titled inputs with
  | ok p => exact hR.title h
  | error cause => exact hR.refl w

omit hev in
theorem define_keeps (p : Procedure) : Keeps R (define p) := by
  intro w
  unfold define
  split
  · exact hR.refl w
  · next h => exact hR.define (Bool.not_eq_true _ ▸ h)

omit hev in
/-- A line is only ever added to the definition that is open. -/
theorem collect_keeps {w : Workspace} {p : Procedure} (hp : w.definition = some p) (text : String)
    (items : List Node) : R w (collect p text items w).2 := by
  unfold collect
  split
  · exact hR.refl w
  · split
    · exact hR.trans (hR.drop w) (define_keeps hR p _)
    · split
      · exact hR.refl w
      · exact hR.addLine items _ hp

theorem handleLine_keeps (text : String) (items : List Node) : Keeps R (handleLine ev text items) := by
  intro w
  rcases hp : w.definition with _ | p
  · rw [handleLine_of_none ev text items hp]
    split
    · exact Keeps.bind hR (beginDefinition_keeps hR items.tail) (fun _ => Keeps.pure hR none) w
    · exact runLine_keeps hR hev items w
  · rw [handleLine_of_some ev text items hp]
    exact Keeps.bind_at hR (collect_keeps hR hp text items) fun _ => Keeps.pure hR none

theorem feed_keeps (line : String) : Keeps R (feed ev line) := by
  refine Keeps.bind hR (readLine_keeps hR line) fun ⟨text, items?⟩ => ?_
  cases items? with
  | none => exact Keeps.pure hR none
  | some items => exact handleLine_keeps hR hev text items

/-! ## Files -/

theorem feedLineOf_keeps (path : String) (number : Nat) (line : String) :
    Keeps R (feedLineOf ev path number line) := by
  intro w
  have h := feed_keeps hR hev line w
  unfold feedLineOf
  split
  · next hf => rw [hf] at h; exact h
  · exact h

theorem feedLines_keeps (path : String) (lines : List String) (number : Nat) :
    Keeps R (feedLines ev path number lines) := by
  induction lines generalizing number with
  | nil => exact Keeps.pure hR ()
  | cons line lines ih =>
    refine Keeps.bind hR (feedLineOf_keeps hR hev path number line) fun r => ?_
    cases r with
    | some v => exact Keeps.bind hR (Keeps.print hR v.display) fun _ => ih (number + 1)
    | none => exact Keeps.bind hR (Keeps.pure hR ()) fun _ => ih (number + 1)

theorem feedText_keeps (path : String) (text : FileText) : Keeps R (feedText ev path text) := by
  cases text with
  | lines lines => exact feedLines_keeps hR hev path lines 1
  | broken lines => exact Keeps.bind hR (feedLines_keeps hR hev path lines 1) fun _ => Keeps.fail hR _

omit hev in
theorem inFile_keeps {body : Exec Unit} (h : Keeps R body) : Keeps R (inFile body) := by
  intro w
  have hb := hR.trans (hR.continuation w {}) (h { w with continuation := {} })
  unfold inFile
  split
  · next hf =>
    rw [hf] at hb
    exact hR.trans (hR.trans hb (hR.continuation _ w.continuation)) (hR.drop _)
  · next hf =>
    rw [hf] at hb
    exact hR.trans hb (hR.continuation _ w.continuation)

omit hev in
theorem closeFile_keeps (path : String) : Keeps R (closeFile path) := by
  intro w
  unfold closeFile
  split
  · exact hR.drop w
  · exact hR.refl w

theorem load_keeps (files : FileStore) (name : String) : Keeps R (load files ev name) := by
  refine Keeps.bind hR ((resolve_fixed files name).keeps hR) fun path => ?_
  refine Keeps.bind hR (inFile_keeps hR (feedText_keeps hR hev path (files.read path))) fun _ => ?_
  exact closeFile_keeps hR path

end Feeding

section Running

variable {R : Workspace → Workspace → Prop} (hR : Steady R)

include hR

/-! ## Built-in procedures -/

variable {ev : Evaluator} (hev : ∀ node, Keeps R (ev node))

include hev

omit hev in
theorem perform_keeps (m : Motion) : Keeps R (perform m) := fun w => hR.draw w m

omit hev in
theorem turtle_keeps : Keeps R turtle := hR.refl

theorem repeatBlock_keeps (block : List Node) (n : Nat) : Keeps R (repeatBlock ev block n) := by
  induction n with
  | zero => exact Keeps.pure hR none
  | succ n ih =>
    refine Keeps.bind hR (runBlock_keeps hR hev block) fun r => ?_
    cases r with
    | some r => exact Keeps.pure hR (some r)
    | none => exact ih

theorem countBlock_keeps (var : String) (block : List Node) (step stop : Float) (n : Nat) (current : Float) :
    Keeps R (countBlock ev var block step stop n current) := by
  induction n generalizing current with
  | zero => exact (Fixed.stop _).keeps hR
  | succ n ih =>
    rw [countBlock]
    by_cases h : if 0 < step then current ≤ stop else stop ≤ current
    · rw [if_pos h]
      refine Keeps.bind hR (Keeps.assign hR var (.num current)) fun _ => ?_
      refine Keeps.bind hR (runBlock_keeps hR hev block) fun r => ?_
      cases r with
      | some r => exact Keeps.pure hR (some r)
      | none => exact ih (current + step)
    · rw [if_neg h]
      exact Keeps.pure hR none

/-- Every built-in procedure only takes inputs, tells the turtle something, assigns, prints, runs blocks or loads. -/
theorem builtin_keeps {files : FileStore} (hload : ∀ file, Keeps R (load files ev file)) (name : String) (b : Builtin) :
    Keeps R (b.run files ev name) := by
  have number := pullNumber_keeps hR hev name
  have value := pullValue_keeps hR hev name
  have word := pullWord_keeps hR hev name
  have list := pullList_keeps hR hev name
  cases b with
  | forward | back | right | left | setHeading => exact Keeps.bind hR number fun _ => perform_keeps hR _
  | clearScreen => exact Keeps.bind hR (perform_keeps hR .home) fun _ => perform_keeps hR .clear
  | home | clean | penDown | penUp => exact perform_keeps hR _
  | setXY => exact Keeps.bind hR number fun _ => Keeps.bind hR number fun _ => perform_keeps hR _
  | setX | setY => exact Keeps.bind hR (turtle_keeps hR) fun _ => Keeps.bind hR number fun _ => perform_keeps hR _
  | getXY | xCor | yCor | heading => exact Keeps.bind hR (turtle_keeps hR) fun _ => Keeps.pure hR _
  | make =>
    refine Keeps.bind hR word fun var => Keeps.bind hR value fun v => ?_
    exact Keeps.bind hR (Keeps.assign hR var v) fun _ => Keeps.pure hR none
  | output => exact Keeps.bind hR value fun _ => Keeps.pure hR _
  | repeatTimes =>
    refine Keeps.bind hR number fun x => Keeps.bind hR ((expectFinite_fixed name x).keeps hR) fun count => ?_
    exact Keeps.bind hR list fun block => repeatBlock_keeps hR hev block _
  | forEach =>
    refine Keeps.bind hR word fun var => ?_
    refine Keeps.bind hR number fun x => Keeps.bind hR ((expectFinite_fixed name x).keeps hR) fun start => ?_
    refine Keeps.bind hR number fun y => Keeps.bind hR ((expectFinite_fixed name y).keeps hR) fun stop => ?_
    exact Keeps.bind hR list fun block => countBlock_keeps hR hev var block _ stop _ start
  | list => exact Keeps.bind hR value fun _ => Keeps.bind hR value fun _ => Keeps.pure hR _
  | lput => exact Keeps.bind hR value fun _ => Keeps.bind hR list fun _ => Keeps.pure hR _
  | item =>
    refine Keeps.bind hR number fun index => Keeps.bind hR value fun thing => ?_
    split
    · exact Keeps.pure hR _
    · exact Keeps.fail hR _
  | print =>
    refine Keeps.bind hR value fun v => ?_
    exact Keeps.bind hR (Keeps.print hR (printed v)) fun _ => Keeps.pure hR none
  | printProcedures | printNames => exact Keeps.bind hR (fun w => hR.printAll _ w) fun _ => Keeps.pure hR none
  | load =>
    refine Keeps.bind hR word fun file => ?_
    exact Keeps.bind (β := Option Node) hR (hload file) fun _ => Keeps.pure hR none
  | title | endTitle => exact Keeps.fail hR _

/-! ## Procedures and nodes -/

theorem bindInputs_keeps (caller : String) (formals : List String) (locals : Table Node) :
    Keeps R (bindInputs ev caller formals locals) := by
  induction formals generalizing locals with
  | nil => exact Keeps.pure hR locals
  | cons formal formals ih =>
    exact Keeps.bind hR (pullValue_keeps hR hev caller) fun v => ih (locals.insert formal v)

theorem runBody_keeps (name : String) (lines : List (List Node)) : Keeps R (runBody ev name lines) := by
  induction lines with
  | nil => exact Keeps.pure hR none
  | cons line lines ih =>
    refine Keeps.bind hR (hev (.line line)) fun r => ?_
    split
    · exact ih
    · exact Keeps.pure hR _
    · exact Keeps.fail hR _

theorem callProcedure_keeps (p : Procedure) : Keeps R (callProcedure ev p) :=
  Keeps.bind hR (bindInputs_keeps hR hev p.name p.formals {}) fun locals =>
    Keeps.withFrame hR locals (runBody_keeps hR hev p.name p.body)

theorem call_keeps {files : FileStore} (hload : ∀ file, Keeps R (load files ev file)) (name : String) :
    Keeps R (call files ev name) := by
  unfold call
  split
  · exact builtin_keeps hR hev hload name _
  · refine Keeps.bind hR (Keeps.get hR) fun w => ?_
    split
    · exact callProcedure_keeps hR hev _
    · exact Keeps.fail hR _

omit hev in
theorem lookup_keeps (name : String) : Keeps R (lookup name) := by
  refine Keeps.bind hR (Keeps.get hR) fun w => ?_
  split
  · exact Keeps.pure hR _
  · exact Keeps.fail hR _

theorem evalBinary_keeps (op : Operator) (left right : Node) : Keeps R (evalBinary ev op left right) := by
  unfold evalBinary
  split
  · refine Keeps.bind hR (valueOf_keeps hR hev op.symbol left) fun a => ?_
    refine Keeps.bind hR (valueOf_keeps hR hev op.symbol right) fun b => ?_
    exact (Fixed.ofExcept _).keeps hR
  · refine Keeps.bind hR (numberOf_keeps hR hev op.symbol left) fun a => ?_
    refine Keeps.bind hR (numberOf_keeps hR hev op.symbol right) fun b => ?_
    exact Keeps.bind hR ((Fixed.ofExcept _).keeps hR) fun x => Keeps.pure hR _

theorem evaluate_keeps {files : FileStore} (hload : ∀ file, Keeps R (load files ev file)) (node : Node) :
    Keeps R (evaluate files ev node) := by
  cases node with
  | num | word | list | output => exact Keeps.pure hR _
  | var name => exact Keeps.bind hR (lookup_keeps hR name) fun _ => Keeps.pure hR _
  | call name => exact call_keeps hR hev hload name
  | line items => exact evalLine_keeps hR hev items
  | group items => exact evalGroup_keeps hR hev items
  | neg operand => exact Keeps.bind hR (numberOf_keeps hR hev _ operand) fun _ => Keeps.pure hR _
  | binary op left right => exact Keeps.bind hR (evalBinary_keeps hR hev op left right) fun _ => Keeps.pure hR _
  | nary op items => exact Keeps.bind hR (evalOperands_keeps hR hev op.symbol items) fun _ => Keeps.pure hR _
  | empty => exact Keeps.fail hR _

omit hev in
/-- Every evaluation keeps a steady relation that loading a file keeps. -/
theorem eval_steady {files : FileStore}
    (hload : ∀ {ev : Evaluator}, (∀ node, Keeps R (ev node)) → ∀ file, Keeps R (load files ev file)) (depth : Nat)
    (node : Node) : Keeps R (eval files depth node) := by
  induction depth generalizing node with
  | zero => exact (Fixed.stop _).keeps hR
  | succ depth ih => exact evaluate_keeps hR ih (hload ih) node

end Running

/-- **Every evaluation keeps a stable relation**, whatever its outcome. -/
theorem eval_keeps {R : Workspace → Workspace → Prop} (hR : Stable R) (files : FileStore) (depth : Nat) (node : Node) :
    Keeps R (eval files depth node) :=
  eval_steady hR (fun hev file => load_keeps hR hev files file) depth node

/-! ## Line after line -/

/-- The workspaces that feeding lines leads to from a fresh one, whatever becomes of each line and whatever files there
are when it is fed. The turtle may have drawn before. -/
inductive Reachable (depth : Nat) : Workspace → Prop
  | fresh (drawing : Drawing) : Reachable depth { drawing }
  | feed {w : Workspace} (files : FileStore) (line : String) :
    Reachable depth w → Reachable depth (TurtleLogo.feed (eval files depth) line w).2

/-- A stable relation holds between a fresh workspace and all that feeding lines leads to. -/
theorem Reachable.keeps {R : Workspace → Workspace → Prop} (hR : Stable R) {depth : Nat} {w : Workspace}
    (h : Reachable depth w) : ∃ drawing, R { drawing } w := by
  induction h with
  | fresh drawing => exact ⟨drawing, hR.refl _⟩
  | feed files line _ ih =>
    obtain ⟨drawing, h⟩ := ih
    exact ⟨drawing, hR.trans h (feed_keeps hR (eval_keeps hR files depth) line _)⟩

end TurtleLogo

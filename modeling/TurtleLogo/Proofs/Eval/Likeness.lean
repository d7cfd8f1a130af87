import TurtleLogo.Proofs.Eval.Keeps

/-!
# Two runs side by side

Run the same thing on two workspaces that are alike. If every step that reads or touches a workspace gives the same
answer on both and leaves them alike, so does every run.

How two workspaces are alike may depend on how many queues and frames were opened since the two runs began, and
outcomes may be asked to be the same in part only, for instance successes but not failures.

* `nextInput` : the next expression as an input, with `pullValue_eq`;
* `Likeness` : a way for two workspaces to be alike that every step respects;
* `Likeness.Same L q f x` : `x` has the same outcome on alike workspaces and leaves them alike;
* `Likeness.Same.evaluate` : one node, given an evaluator that does so;
* `Likeness.eval_same` : every node at every depth.
-/

namespace TurtleLogo

open Exec

/-- The next expression off the innermost queue, as an input of `caller`. -/
def nextInput (caller : String) : Exec Node := fun w =>
  match w.pending with
  | [] => fail .noLine w
  | [] :: _ => fail (.moreInputs caller) w
  | (node :: rest) :: outer => (.ok node, { w with pending := rest :: outer })

theorem pullValue_eq (ev : Evaluator) (caller : String) :
    pullValue ev caller = nextInput caller >>= valueOf ev caller := by
  funext w
  unfold pullValue
  rw [bind_apply, bind_apply]
  rcases hp : w.pending with _ | ⟨_ | ⟨node, rest⟩, outer⟩ <;>
    simp only [Exec.get, hp, List.isEmpty_nil, List.isEmpty_cons, Bool.false_eq_true, if_true, if_false, bind_apply,
      next?, nextInput] <;>
    rfl

/-- A way for two workspaces to be alike, with so many queues and frames opened in both, that every step that reads or
touches a workspace respects. -/
structure Likeness where
  rel : (queues frames : Nat) → Workspace → Workspace → Prop
  /-- Whether a success, or a failure, has to be the same in both with so many queues opened. -/
  due : (queues : Nat) → (success : Bool) → Prop
  due_success : ∀ {q s}, due q s → due q true
  due_opened : ∀ {q s}, due q s → due (q + 1) s
  locals : ∀ {q f w v}, rel q f w v → v.locals = w.locals
  globals : ∀ {q f w v}, rel q f w v → v.globals = w.globals
  procedures : ∀ {q f w v}, rel q f w v → v.procedures = w.procedures
  definition : ∀ {q f w v}, rel q f w v → v.definition = w.definition
  continuation : ∀ {q f w v}, rel q f w v → v.continuation = w.continuation
  position : ∀ {q f w v}, rel q f w v → v.drawing.turtle.x = w.drawing.turtle.x ∧
    v.drawing.turtle.y = w.drawing.turtle.y ∧ v.drawing.turtle.heading = w.drawing.turtle.heading
  assign : ∀ {q f w v} name value, rel q f w v → rel q f (w.assign name value) (v.assign name value)
  draw : ∀ {q f w v} m, rel q f w v →
    rel q f { w with drawing := w.drawing.apply m } { v with drawing := v.drawing.apply m }
  print : ∀ {q f w v} text, rel q f w v → rel q f (w.print text) (v.print text)
  setContinuation : ∀ {q f w v} c, rel q f w v →
    rel q f { w with continuation := c } { v with continuation := c }
  setDefinition : ∀ {q f w v} d, rel q f w v → rel q f { w with definition := d } { v with definition := d }
  setProcedures : ∀ {q f w v} t, rel q f w v → rel q f { w with procedures := t } { v with procedures := t }
  openQueue : ∀ {q f w v} items, rel q f w v →
    rel (q + 1) f { w with pending := items :: w.pending } { v with pending := items :: v.pending }
  closeQueue : ∀ {q f w v}, rel (q + 1) f w v →
    rel q f { w with pending := w.pending.tail } { v with pending := v.pending.tail }
  openFrame : ∀ {q f w v} locals, rel q f w v →
    rel (q + 1) (f + 1) { w with frames := locals :: w.frames, pending := [] :: w.pending }
      { v with frames := locals :: v.frames, pending := [] :: v.pending }
  closeFrame : ∀ {q f w v}, rel (q + 1) (f + 1) w v →
    rel q f { w with frames := w.frames.tail, pending := w.pending.tail }
      { v with frames := v.frames.tail, pending := v.pending.tail }
  next : ∀ {q f w v}, rel (q + 1) f w v →
    (next? v).1 = (next? w).1 ∧ rel (q + 1) f (next? w).2 (next? v).2
  more : ∀ {q f w v}, rel (q + 1) f w v → (isMore v).1 = (isMore w).1
  input : ∀ {q f w v} caller, rel q f w v → due q (nextInput caller w).1.isOk →
    (nextInput caller v).1 = (nextInput caller w).1 ∧ rel q f (nextInput caller w).2 (nextInput caller v).2

namespace Likeness

variable {α β : Type} (L : Likeness) {q f : Nat}

/-- On alike workspaces `x` has the same outcome, as far as that is due, and leaves them alike. -/
def Same (q f : Nat) (x : Exec α) : Prop :=
  ∀ w v, L.rel q f w v → L.due q (x w).1.isOk → (x v).1 = (x w).1 ∧ L.rel q f (x w).2 (x v).2

variable {L}

/-! ## How runs are put together -/

theorem Same.of_fixed {x : Exec α} (h : Fixed x) : L.Same q f x := by
  obtain ⟨r, hr⟩ := h
  intro w v hwv _
  rw [hr, hr]
  exact ⟨rfl, hwv⟩

theorem Same.pure (a : α) : L.Same q f (Pure.pure a : Exec α) := .of_fixed (Fixed.pure a)

theorem Same.fail (cause : Cause) : L.Same q f (Exec.fail cause : Exec α) := .of_fixed (Fixed.fail cause)

theorem Same.bind_at {x : Exec α} {g : α → Exec β} {w v : Workspace}
    (hx : L.due q (x w).1.isOk → (x v).1 = (x w).1 ∧ L.rel q f (x w).2 (x v).2) (hg : ∀ a, L.Same q f (g a))
    (hd : L.due q ((x >>= g) w).1.isOk) :
    ((x >>= g) v).1 = ((x >>= g) w).1 ∧ L.rel q f ((x >>= g) w).2 ((x >>= g) v).2 := by
  rw [bind_apply] at hd
  rw [bind_apply, bind_apply]
  rcases hw : x w with ⟨r, w'⟩
  rw [hw] at hd hx
  rcases hv : x v with ⟨r', v'⟩
  rw [hv] at hx
  cases r with
  | ok a =>
    obtain ⟨rfl, hwv⟩ := hx (L.due_success hd)
    exact hg a w' v' hwv hd
  | error e =>
    obtain ⟨rfl, hwv⟩ := hx hd
    exact ⟨rfl, hwv⟩

theorem Same.bind {x : Exec α} {g : α → Exec β} (hx : L.Same q f x) (hg : ∀ a, L.Same q f (g a)) :
    L.Same q f (x >>= g) := fun w v hwv => Same.bind_at (hx w v hwv) hg

/-- What is read off the workspace may only be something that alike workspaces share. -/
theorem Same.get_bind {g : Workspace → Exec β} (hg : ∀ {w v}, L.rel q f w v → g v = g w)
    (h : ∀ w, L.Same q f (g w)) : L.Same q f (Exec.get >>= g) := by
  intro w v hwv hd
  change (g v v).1 = (g w w).1 ∧ L.rel q f (g w w).2 (g v v).2
  rw [hg hwv]
  exact h w w v hwv hd

theorem Same.modify {g : Workspace → Workspace} (h : ∀ {w v}, L.rel q f w v → L.rel q f (g w) (g v)) :
    L.Same q f (Exec.modify g) := fun _ _ hwv _ => ⟨rfl, h hwv⟩

/-- It is enough that the outcome is due with the queue opened. -/
theorem Same.withQueue_at (items : List Node) {body : Exec α} (h : L.Same (q + 1) f body) {w v : Workspace}
    (hwv : L.rel q f w v) (hd : L.due (q + 1) (Exec.withQueue items body w).1.isOk) :
    (Exec.withQueue items body v).1 = (Exec.withQueue items body w).1 ∧
      L.rel q f (Exec.withQueue items body w).2 (Exec.withQueue items body v).2 := by
  obtain ⟨h1, h2⟩ := h _ _ (L.openQueue items hwv) hd
  exact ⟨h1, L.closeQueue h2⟩

theorem Same.withQueue (items : List Node) {body : Exec α} (h : L.Same (q + 1) f body) :
    L.Same q f (Exec.withQueue items body) := fun _ _ hwv hd => Same.withQueue_at items h hwv (L.due_opened hd)

theorem Same.withFrame (locals : Table Node) {body : Exec α} (h : L.Same (q + 1) (f + 1) body) :
    L.Same q f (Exec.withFrame locals body) := by
  intro w v hwv hd
  obtain ⟨h1, h2⟩ := h _ _ (L.openFrame locals hwv) (L.due_opened hd)
  exact ⟨h1, L.closeFrame h2⟩

theorem Same.next? : L.Same (q + 1) f Exec.next? := fun _ _ hwv _ => L.next hwv

theorem Same.isMore : L.Same (q + 1) f Exec.isMore := by
  intro w v hwv _
  have hw : ∀ u : Workspace, (Exec.isMore u).2 = u := by
    intro u
    unfold Exec.isMore
    split <;> rfl
  rw [hw, hw]
  exact ⟨L.more hwv, hwv⟩

theorem printAll_rel (lines : List String) {w v : Workspace} (hwv : L.rel q f w v) :
    L.rel q f (w.printAll lines) (v.printAll lines) := by
  induction lines generalizing w v with
  | nil => exact hwv
  | cons line lines ih => exact ih (L.print line hwv)

/-! ## Reading the workspace -/

theorem lookup?_eq {w v : Workspace} (hwv : L.rel q f w v) (name : String) : v.lookup? name = w.lookup? name := by
  unfold Workspace.lookup?
  rw [L.locals hwv, L.globals hwv]

theorem Same.lookup (name : String) : L.Same q f (TurtleLogo.lookup name) := by
  refine Same.get_bind (fun {w v} hwv => ?_) fun w => ?_
  · rw [lookup?_eq hwv]
  · split
    · exact Same.pure _
    · exact Same.fail _

/-- Alike workspaces need not agree on the pen. -/
theorem Same.turtle_bind {g : Turtle → Exec β}
    (hg : ∀ t t' : Turtle, t'.x = t.x → t'.y = t.y → t'.heading = t.heading → g t' = g t)
    (h : ∀ t, L.Same q f (g t)) : L.Same q f (turtle >>= g) := by
  intro w v hwv hd
  obtain ⟨hx, hy, hh⟩ := L.position hwv
  change (g v.drawing.turtle v).1 = (g w.drawing.turtle w).1 ∧
    L.rel q f (g w.drawing.turtle w).2 (g v.drawing.turtle v).2
  rw [hg w.drawing.turtle v.drawing.turtle hx hy hh]
  exact h w.drawing.turtle w v hwv hd

theorem Same.readLine (line : String) : L.Same q f (TurtleLogo.readLine line) := by
  intro w v hwv _
  unfold TurtleLogo.readLine
  dsimp only
  rw [L.continuation hwv]
  split
  · exact ⟨rfl, L.setContinuation {} hwv⟩
  · split
    · exact ⟨rfl, L.setContinuation _ hwv⟩
    · split <;> exact ⟨rfl, L.setContinuation {} hwv⟩

/-! ## Definitions -/

theorem Same.setDefinition (d : Option Procedure) :
    L.Same q f (Exec.modify fun w => { w with definition := d }) := Same.modify (L.setDefinition d)

theorem Same.define (p : Procedure) : L.Same q f (TurtleLogo.define p) := by
  unfold TurtleLogo.define
  split
  · exact Same.fail _
  · refine Same.modify fun {w v} hwv => ?_
    rw [L.procedures hwv]
    exact L.setProcedures _ hwv

theorem Same.beginDefinition (inputs : List Node) : L.Same q f (TurtleLogo.beginDefinition inputs) :=
  Same.bind (.of_fixed (Fixed.ofExcept _)) fun p => Same.setDefinition (some p)

theorem Same.collect (p : Procedure) (text : String) (items : List Node) :
    L.Same q f (TurtleLogo.collect p text items) := by
  unfold TurtleLogo.collect
  split
  · exact Same.fail _
  · split
    · exact Same.bind (Same.setDefinition none) fun _ => Same.define p
    · split
      · exact Same.pure ()
      · exact Same.setDefinition _

section Runs

variable {ev : Evaluator} (hev : ∀ q f node, L.Same q f (ev node))

include hev

/-! ## Inputs and sequences -/

theorem Same.valueOf (caller : String) (node : Node) : L.Same q f (TurtleLogo.valueOf ev caller node) :=
  Same.bind (hev q f node) fun r => .of_fixed (expectValue_fixed caller node r)

theorem Same.numberOf (caller : String) (node : Node) : L.Same q f (TurtleLogo.numberOf ev caller node) :=
  Same.bind (Same.valueOf hev caller node) fun v => .of_fixed (expectNumber_fixed caller v)

theorem Same.pullValue (caller : String) : L.Same q f (TurtleLogo.pullValue ev caller) := by
  rw [pullValue_eq]
  exact Same.bind (fun _ _ hwv hd => L.input caller hwv hd) fun node => Same.valueOf hev caller node

theorem Same.pullNumber (caller : String) : L.Same q f (TurtleLogo.pullNumber ev caller) :=
  Same.bind (Same.pullValue hev caller) fun v => .of_fixed (expectNumber_fixed caller v)

theorem Same.pullWord (caller : String) : L.Same q f (TurtleLogo.pullWord ev caller) :=
  Same.bind (Same.pullValue hev caller) fun v => .of_fixed (expectWord_fixed caller v)

theorem Same.pullList (caller : String) : L.Same q f (TurtleLogo.pullList ev caller) :=
  Same.bind (Same.pullValue hev caller) fun v => .of_fixed (expectList_fixed caller v)

theorem Same.statements (n : Nat) : L.Same (q + 1) f (TurtleLogo.statements ev n) := by
  induction n with
  | zero => exact Same.pure none
  | succ n ih =>
    refine Same.bind Same.next? fun node? => ?_
    cases node? with
    | none => exact Same.pure none
    | some node =>
      refine Same.bind (hev (q + 1) f node) fun r => ?_
      cases r with
      | none => exact ih
      | some r => exact Same.pure (some r)

theorem Same.evalLine_at (items : List Node) {w v : Workspace} (hwv : L.rel q f w v)
    (hd : L.due (q + 1) (TurtleLogo.evalLine ev items w).1.isOk) :
    (TurtleLogo.evalLine ev items v).1 = (TurtleLogo.evalLine ev items w).1 ∧
      L.rel q f (TurtleLogo.evalLine ev items w).2 (TurtleLogo.evalLine ev items v).2 := by
  refine Same.withQueue_at items (Same.bind (Same.statements hev items.length) fun r => ?_) hwv hd
  split
  · exact Same.pure none
  · exact Same.pure _
  · refine Same.bind Same.isMore fun more => ?_
    split
    · exact Same.fail _
    · exact Same.pure _

theorem Same.evalLine (items : List Node) : L.Same q f (TurtleLogo.evalLine ev items) :=
  fun _ _ hwv hd => Same.evalLine_at hev items hwv (L.due_opened hd)

theorem Same.evalGroup (items : List Node) : L.Same q f (TurtleLogo.evalGroup ev items) := by
  refine Same.withQueue items (Same.bind Same.next? fun node? => ?_)
  cases node? with
  | none => exact Same.pure none
  | some node => exact hev (q + 1) f node

theorem Same.instructions (n : Nat) : L.Same (q + 1) f (TurtleLogo.instructions ev n) := by
  induction n with
  | zero => exact Same.pure none
  | succ n ih =>
    refine Same.bind Same.next? fun node? => ?_
    cases node? with
    | none => exact Same.pure none
    | some node =>
      refine Same.bind (hev (q + 1) f node) fun r => ?_
      split
      · exact ih
      · exact Same.pure _
      · exact Same.fail _

theorem Same.runBlock (items : List Node) : L.Same q f (TurtleLogo.runBlock ev items) :=
  Same.withQueue items (Same.instructions hev items.length)

theorem Same.operands (caller : String) (n : Nat) : L.Same (q + 1) f (TurtleLogo.operands ev caller n) := by
  induction n with
  | zero => exact Same.pure []
  | succ n ih =>
    refine Same.bind Same.next? fun node? => ?_
    cases node? with
    | none => exact Same.pure []
    | some node =>
      refine Same.bind (Same.numberOf hev caller node) fun x => ?_
      exact Same.bind ih fun xs => Same.pure (x :: xs)

theorem Same.evalOperands (caller : String) (items : List Node) :
    L.Same q f (TurtleLogo.evalOperands ev caller items) :=
  Same.withQueue items (Same.operands hev caller items.length)

/-! ## Lines and files -/

theorem Same.runLine (items : List Node) : L.Same q f (TurtleLogo.runLine ev items) := by
  refine Same.bind (hev q f (.line items)) fun r => ?_
  split
  · exact Same.fail _
  · exact Same.pure _

theorem Same.handleLine (text : String) (items : List Node) :
    L.Same q f (TurtleLogo.handleLine ev text items) := by
  refine Same.get_bind (fun {w v} hwv => ?_) fun w => ?_
  · rw [L.definition hwv]
  · split
    · exact Same.bind (Same.collect _ text items) fun _ => Same.pure none
    · split
      · exact Same.bind (Same.beginDefinition items.tail) fun _ => Same.pure none
      · exact Same.runLine hev items

theorem Same.feed (line : String) : L.Same q f (TurtleLogo.feed ev line) := by
  refine Same.bind (Same.readLine line) fun ⟨text, items?⟩ => ?_
  cases items? with
  | none => exact Same.pure none
  | some items => exact Same.handleLine hev text items

theorem Same.feedLineOf (path : String) (number : Nat) (line : String) :
    L.Same q f (TurtleLogo.feedLineOf ev path number line) := by
  intro w v hwv hd
  have h := Same.feed hev line w v hwv
  unfold TurtleLogo.feedLineOf at hd ⊢
  rcases hw : TurtleLogo.feed ev line w with ⟨r, w'⟩
  rcases hv : TurtleLogo.feed ev line v with ⟨r', v'⟩
  rw [hw] at hd
  rw [hw, hv] at h
  rcases r with (fault | crash) | r
  · obtain ⟨rfl, hwv'⟩ := h hd
    exact ⟨rfl, hwv'⟩
  · obtain ⟨rfl, hwv'⟩ := h hd
    exact ⟨rfl, hwv'⟩
  · obtain ⟨rfl, hwv'⟩ := h hd
    exact ⟨rfl, hwv'⟩

theorem Same.feedLines (path : String) (lines : List String) (number : Nat) :
    L.Same q f (TurtleLogo.feedLines ev path number lines) := by
  induction lines generalizing number with
  | nil => exact Same.pure ()
  | cons line lines ih =>
    refine Same.bind (Same.feedLineOf hev path number line) fun r => ?_
    cases r with
    | some v => exact Same.bind (Same.modify (L.print v.display)) fun _ => ih (number + 1)
    | none => exact Same.bind (Same.pure ()) fun _ => ih (number + 1)

theorem Same.feedText (path : String) (text : FileText) : L.Same q f (TurtleLogo.feedText ev path text) := by
  cases text with
  | lines lines => exact Same.feedLines hev path lines 1
  | broken lines => exact Same.bind (Same.feedLines hev path lines 1) fun _ => Same.fail _

omit hev in
theorem Same.inFile {body : Exec Unit} (h : L.Same q f body) : L.Same q f (TurtleLogo.inFile body) := by
  intro w v hwv hd
  have hb := h _ _ (L.setContinuation {} hwv)
  unfold TurtleLogo.inFile at hd ⊢
  rw [L.continuation hwv]
  rcases hw : body { w with continuation := {} } with ⟨r, w'⟩
  rcases hv : body { v with continuation := {} } with ⟨r', v'⟩
  rw [hw] at hd
  rw [hw, hv] at hb
  rcases r with (fault | crash) | r
  · obtain ⟨rfl, hwv'⟩ := hb hd
    exact ⟨rfl, L.setDefinition none (L.setContinuation w.continuation hwv')⟩
  · obtain ⟨rfl, hwv'⟩ := hb hd
    exact ⟨rfl, L.setContinuation w.continuation hwv'⟩
  · obtain ⟨rfl, hwv'⟩ := hb hd
    exact ⟨rfl, L.setContinuation w.continuation hwv'⟩

omit hev in
theorem Same.closeFile (path : String) : L.Same q f (TurtleLogo.closeFile path) := by
  intro w v hwv _
  unfold TurtleLogo.closeFile
  rw [L.definition hwv]
  split
  · exact ⟨rfl, L.setDefinition none hwv⟩
  · exact ⟨rfl, hwv⟩

theorem Same.load (files : FileStore) (name : String) : L.Same q f (TurtleLogo.load files ev name) := by
  refine Same.bind (.of_fixed (resolve_fixed files name)) fun path => ?_
  refine Same.bind (Same.inFile (Same.feedText hev path (files.read path))) fun _ => ?_
  exact Same.closeFile path

/-! ## Built-in procedures -/

omit hev in
theorem Same.perform (m : Motion) : L.Same q f (TurtleLogo.perform m) :=
  Same.bind (Same.modify (L.draw m)) fun _ => Same.pure none

theorem Same.repeatBlock (block : List Node) (n : Nat) : L.Same q f (TurtleLogo.repeatBlock ev block n) := by
  induction n with
  | zero => exact Same.pure none
  | succ n ih =>
    refine Same.bind (Same.runBlock hev block) fun r => ?_
    cases r with
    | some r => exact Same.pure (some r)
    | none => exact ih

theorem Same.countBlock (var : String) (block : List Node) (step stop : Float) (n : Nat) (current : Float) :
    L.Same q f (TurtleLogo.countBlock ev var block step stop n current) := by
  induction n generalizing current with
  | zero => exact .of_fixed (Fixed.stop _)
  | succ n ih =>
    rw [TurtleLogo.countBlock]
    by_cases h : if 0 < step then current ≤ stop else stop ≤ current
    · rw [if_pos h]
      refine Same.bind (Same.modify (L.assign var (.num current))) fun _ => ?_
      refine Same.bind (Same.runBlock hev block) fun r => ?_
      cases r with
      | some r => exact Same.pure (some r)
      | none => exact ih (current + step)
    · rw [if_neg h]
      exact Same.pure none

theorem Same.builtin (files : FileStore) (name : String) (b : Builtin) : L.Same q f (b.run files ev name) := by
  have number : L.Same q f (TurtleLogo.pullNumber ev name) := Same.pullNumber hev name
  have value : L.Same q f (TurtleLogo.pullValue ev name) := Same.pullValue hev name
  have word : L.Same q f (TurtleLogo.pullWord ev name) := Same.pullWord hev name
  have list : L.Same q f (TurtleLogo.pullList ev name) := Same.pullList hev name
  have finite (x : Float) : L.Same q f (expectFinite name x) := .of_fixed (expectFinite_fixed name x)
  cases b with
  | forward | back | right | left | setHeading => exact Same.bind number fun _ => Same.perform _
  | clearScreen => exact Same.bind (Same.perform .home) fun _ => Same.perform .clear
  | home | clean | penDown | penUp => exact Same.perform _
  | setXY => exact Same.bind number fun _ => Same.bind number fun _ => Same.perform _
  | setX =>
    refine Same.turtle_bind (fun t t' _ hy _ => ?_) fun t => Same.bind number fun _ => Same.perform _
    rw [hy]
  | setY =>
    refine Same.turtle_bind (fun t t' hx _ _ => ?_) fun t => Same.bind number fun _ => Same.perform _
    rw [hx]
  | getXY =>
    refine Same.turtle_bind (fun t t' hx hy _ => ?_) fun t => Same.pure _
    rw [hx, hy]
  | xCor =>
    refine Same.turtle_bind (fun t t' hx _ _ => ?_) fun t => Same.pure _
    rw [hx]
  | yCor =>
    refine Same.turtle_bind (fun t t' _ hy _ => ?_) fun t => Same.pure _
    rw [hy]
  | heading =>
    refine Same.turtle_bind (fun t t' _ _ hh => ?_) fun t => Same.pure _
    rw [hh]
  | make =>
    refine Same.bind word fun var => Same.bind value fun v => ?_
    exact Same.bind (Same.modify (L.assign var v)) fun _ => Same.pure none
  | output => exact Same.bind value fun _ => Same.pure _
  | repeatTimes =>
    refine Same.bind number fun x => Same.bind (finite x) fun count => ?_
    exact Same.bind list fun block => Same.repeatBlock hev block _
  | forEach =>
    refine Same.bind word fun var => ?_
    refine Same.bind number fun x => Same.bind (finite x) fun start => ?_
    refine Same.bind number fun y => Same.bind (finite y) fun stop => ?_
    exact Same.bind list fun block => Same.countBlock hev var block _ stop _ start
  | list => exact Same.bind value fun _ => Same.bind value fun _ => Same.pure _
  | lput => exact Same.bind value fun _ => Same.bind list fun _ => Same.pure _
  | item =>
    refine Same.bind number fun index => Same.bind value fun thing => ?_
    split
    · exact Same.pure _
    · exact Same.fail _
  | print =>
    refine Same.bind value fun v => ?_
    exact Same.bind (Same.modify (L.print (printed v))) fun _ => Same.pure none
  | printProcedures =>
    refine Same.bind (Same.modify fun {w v} hwv => ?_) fun _ => Same.pure none
    rw [L.procedures hwv]
    exact printAll_rel _ hwv
  | printNames =>
    refine Same.bind (Same.modify fun {w v} hwv => ?_) fun _ => Same.pure none
    rw [L.locals hwv, L.globals hwv]
    exact printAll_rel _ hwv
  | load =>
    refine Same.bind word fun file => ?_
    exact Same.bind (β := Option Node) (Same.load hev files file) fun _ => Same.pure none
  | title | endTitle => exact Same.fail _

/-! ## Procedures and nodes -/

theorem Same.bindInputs (caller : String) (formals : List String) (locals : Table Node) :
    L.Same q f (TurtleLogo.bindInputs ev caller formals locals) := by
  induction formals generalizing locals with
  | nil => exact Same.pure locals
  | cons formal formals ih =>
    exact Same.bind (Same.pullValue hev caller) fun v => ih (locals.insert formal v)

theorem Same.runBody (name : String) (lines : List (List Node)) :
    L.Same q f (TurtleLogo.runBody ev name lines) := by
  induction lines with
  | nil => exact Same.pure none
  | cons line lines ih =>
    refine Same.bind (hev q f (.line line)) fun r => ?_
    split
    · exact ih
    · exact Same.pure _
    · exact Same.fail _

theorem Same.callProcedure (p : Procedure) : L.Same q f (TurtleLogo.callProcedure ev p) :=
  Same.bind (Same.bindInputs hev p.name p.formals {}) fun locals =>
    Same.withFrame locals (Same.runBody hev p.name p.body)

theorem Same.call (files : FileStore) (name : String) : L.Same q f (TurtleLogo.call files ev name) := by
  unfold TurtleLogo.call
  split
  · exact Same.builtin hev files name _
  · refine Same.get_bind (fun {w v} hwv => ?_) fun w => ?_
    · rw [L.procedures hwv]
    · split
      · exact Same.callProcedure hev _
      · exact Same.fail _

theorem Same.evalBinary (op : Operator) (left right : Node) :
    L.Same q f (TurtleLogo.evalBinary ev op left right) := by
  unfold TurtleLogo.evalBinary
  split
  · refine Same.bind (Same.valueOf hev op.symbol left) fun a => ?_
    refine Same.bind (Same.valueOf hev op.symbol right) fun b => ?_
    exact .of_fixed (Fixed.ofExcept _)
  · refine Same.bind (Same.numberOf hev op.symbol left) fun a => ?_
    refine Same.bind (Same.numberOf hev op.symbol right) fun b => ?_
    exact Same.bind (.of_fixed (Fixed.ofExcept _)) fun x => Same.pure _

theorem Same.evaluate (files : FileStore) (node : Node) : L.Same q f (TurtleLogo.evaluate files ev node) := by
  cases node with
  | num | word | list | output => exact Same.pure _
  | var name => exact Same.bind (Same.lookup name) fun _ => Same.pure _
  | call name => exact Same.call hev files name
  | line items => exact Same.evalLine hev items
  | group items => exact Same.evalGroup hev items
  | neg operand => exact Same.bind (Same.numberOf hev _ operand) fun _ => Same.pure _
  | binary op left right => exact Same.bind (Same.evalBinary hev op left right) fun _ => Same.pure _
  | nary op items => exact Same.bind (Same.evalOperands hev op.symbol items) fun _ => Same.pure _
  | empty => exact Same.fail _

end Runs

/-- **Every evaluation is the same on alike workspaces**, as far as its outcome is due to be. -/
theorem eval_same (files : FileStore) (depth q f : Nat) (node : Node) : L.Same q f (eval files depth node) := by
  induction depth generalizing q f node with
  | zero => exact .of_fixed (Fixed.stop _)
  | succ depth ih => exact Same.evaluate ih files node

end Likeness

end TurtleLogo

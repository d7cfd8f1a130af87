import TurtleLogo.Proofs.Eval.Continuation

/-!
# Routines

Everything that the evaluator does is put together from steps of its own, which evaluate nothing, and from evaluations
of other nodes; nothing catches a failure. Only the call that loads a file is not of this kind, since a file adds to the
faults of its lines.

* `Exec.Untraced x` : the faults of `x` have not passed through any file;
* `Routine X` : `X`, which is given an evaluator, is put together so;
* `Routine.feed` : a line, `Routine.evaluate` : one node that is not a call of `LOAD`.
-/

namespace TurtleLogo

open Exec

/-! ## Steps -/

namespace Exec

variable {α β : Type}

theorem bind_error_iff {x : Exec α} {g : α → Exec β} {w : Workspace} {e : Failure} :
    ((x >>= g) w).1 = .error e ↔ (x w).1 = .error e ∨ ∃ a u, x w = (.ok a, u) ∧ (g a u).1 = .error e := by
  rw [bind_apply]
  rcases x w with ⟨e' | a, u⟩
  · constructor
    · rintro ⟨⟩
      exact .inl rfl
    · rintro (⟨⟨⟩⟩ | ⟨a, v, hok, -⟩)
      · rfl
      · cases hok
  · constructor
    · exact fun h => .inr ⟨a, u, rfl, h⟩
    · rintro (h | ⟨b, v, hok, h⟩)
      · cases h
      · cases hok
        exact h

def Untraced (x : Exec α) : Prop := ∀ w f, (x w).1 = .error (.fault f) → f.trace = []

theorem Untraced.pure (a : α) : Untraced (Pure.pure a : Exec α) := by
  rintro w f ⟨⟩

theorem Untraced.fail (cause : Cause) : Untraced (fail cause : Exec α) := by
  rintro w f ⟨⟩
  rfl

theorem Untraced.ofExcept (e : Except Cause α) : Untraced (ofExcept e) := by
  cases e with
  | ok a => exact .pure a
  | error cause => exact .fail cause

theorem Untraced.get : Untraced get := by
  rintro w f ⟨⟩

theorem Untraced.modify (g : Workspace → Workspace) : Untraced (modify g) := by
  rintro w f ⟨⟩

theorem Untraced.next? : Untraced next? := by
  intro w f h
  unfold Exec.next? at h
  split at h <;> cases h

theorem Untraced.isMore : Untraced isMore := by
  intro w f h
  unfold Exec.isMore at h
  split at h <;> cases h

theorem Untraced.bind {x : Exec α} {g : α → Exec β} (hx : Untraced x) (hg : ∀ a, Untraced (g a)) :
    Untraced (x >>= g) := by
  intro w f h
  rcases bind_error_iff.mp h with h | ⟨a, u, -, h⟩
  · exact hx w f h
  · exact hg a u f h

end Exec

theorem expectValue_untraced (caller : String) (node : Node) (r : Result) : Untraced (expectValue caller node r) := by
  unfold expectValue
  split
  · exact .fail _
  · exact .fail _
  · exact .pure _

theorem expectNumber_untraced (caller : String) (v : Node) : Untraced (expectNumber caller v) := by
  unfold expectNumber
  split
  · exact .pure _
  · exact .fail _

theorem expectWord_untraced (caller : String) (v : Node) : Untraced (expectWord caller v) := by
  unfold expectWord
  split
  · exact .pure _
  · exact .fail _

theorem expectList_untraced (caller : String) (v : Node) : Untraced (expectList caller v) := by
  unfold expectList
  split
  · exact .pure _
  · exact .fail _

theorem expectFinite_untraced (caller : String) (x : Float) : Untraced (expectFinite caller x) := by
  unfold expectFinite
  split
  · exact .pure _
  · exact .fail _

theorem lookup_untraced (name : String) : Untraced (lookup name) := by
  refine .bind .get fun w => ?_
  split
  · exact .pure _
  · exact .fail _

theorem beginDefinition_untraced (title : List Node) : Untraced (beginDefinition title) :=
  .bind (.ofExcept _) fun _ => .modify _

theorem collect_untraced (p : Procedure) (text : String) (items : List Node) : Untraced (collect p text items) := by
  unfold collect
  split
  · exact .fail _
  · split
    · refine .bind (.modify _) fun _ => ?_
      unfold define
      split
      · exact .fail _
      · exact .modify _
    · split
      · exact .pure _
      · exact .modify _

theorem Misspelling.trace_failure {e : Misspelling} {line : String} {f : Fault} (h : e.failure line = .fault f) :
    f.trace = [] := by
  unfold Misspelling.failure at h
  split at h
  · injection h with h
    rw [← h]
    rfl
  · cases h

theorem ParseError.trace_failure {e : ParseError} {tokens : List Token} {f : Fault} (h : e.failure tokens = .fault f) :
    f.trace = [] := by
  unfold ParseError.failure at h
  split at h
  · cases h
  · injection h with h
    rw [← h]
    rfl

theorem Failure.trace_inLine {e : Failure} {text : String} {continued : Bool} {f : Fault}
    (he : ∀ g, e = .fault g → g.trace = []) (h : e.inLine text continued = .fault f) : f.trace = [] := by
  cases e with
  | crash c => cases h
  | fault g =>
    injection h with h
    rw [← h, Fault.locate]
    split
    · exact he g rfl
    · exact he g rfl

theorem readLine_untraced (line : String) : Untraced (readLine line) := by
  intro w f h
  cases ht : tokenize line with
  | error e =>
    rw [readLine_misspelled ht] at h
    injection h with h
    exact Failure.trace_inLine (fun _ => Misspelling.trace_failure) h
  | ok tokens =>
    cases hc : endsInCont (w.continuation.tokens ++ tokens) with
    | true =>
      rw [readLine_cont ht hc] at h
      cases h
    | false =>
      rw [readLine_whole ht hc] at h
      cases hp : parseLine (w.continuation.tokens ++ tokens) with
      | ok items =>
        rw [hp] at h
        cases h
      | error e =>
        rw [hp] at h
        injection h with h
        exact Failure.trace_inLine (fun _ => ParseError.trace_failure) h

/-! ## Routines -/

/-- Something that is put together from steps which evaluate nothing, and from evaluations. -/
inductive Routine : {α : Type} → (Evaluator → Exec α) → Prop
  | step {α : Type} {x : Exec α} (hx : Untraced x) : Routine fun _ => x
  | inner (node : Node) : Routine fun ev => ev node
  | bind {α β : Type} {X : Evaluator → Exec α} {F : α → Evaluator → Exec β} (hX : Routine X)
      (hF : ∀ a, Routine (F a)) : Routine fun ev => X ev >>= fun a => F a ev
  | around {α : Type} {X : Evaluator → Exec α} (enter leave : Workspace → Workspace) (hX : Routine X) :
      Routine fun ev => Exec.around enter leave (X ev)

namespace Routine

variable {α : Type}

theorem pure (a : α) : Routine fun _ => (Pure.pure a : Exec α) := .step (.pure a)

theorem fail (cause : Cause) : Routine fun _ => (Exec.fail cause : Exec α) := .step (.fail cause)

theorem withQueue (items : List Node) {X : Evaluator → Exec α} (hX : Routine X) :
    Routine fun ev => Exec.withQueue items (X ev) := .around _ _ hX

theorem withFrame (frame : Table Node) {X : Evaluator → Exec α} (hX : Routine X) :
    Routine fun ev => Exec.withFrame frame (X ev) := .around _ _ hX

/-! ## Inputs and sequences -/

theorem valueOf (caller : String) (node : Node) : Routine fun ev => valueOf ev caller node :=
  .bind (.inner node) fun r => .step (expectValue_untraced caller node r)

theorem numberOf (caller : String) (node : Node) : Routine fun ev => numberOf ev caller node :=
  .bind (valueOf caller node) fun v => .step (expectNumber_untraced caller v)

theorem pullValue (caller : String) : Routine fun ev => pullValue ev caller := by
  refine .bind (.step .get) fun w => ?_
  split
  · exact .fail _
  · refine .bind (.step .next?) fun node? => ?_
    cases node? with
    | none => exact .fail _
    | some node => exact valueOf caller node

theorem pullNumber (caller : String) : Routine fun ev => pullNumber ev caller :=
  .bind (pullValue caller) fun v => .step (expectNumber_untraced caller v)

theorem pullWord (caller : String) : Routine fun ev => pullWord ev caller :=
  .bind (pullValue caller) fun v => .step (expectWord_untraced caller v)

theorem pullList (caller : String) : Routine fun ev => pullList ev caller :=
  .bind (pullValue caller) fun v => .step (expectList_untraced caller v)

theorem statements (n : Nat) : Routine fun ev => statements ev n := by
  induction n with
  | zero => exact .pure none
  | succ n ih =>
    refine .bind (.step .next?) fun node? => ?_
    cases node? with
    | none => exact .pure _
    | some node =>
      refine .bind (.inner node) fun r => ?_
      cases r with
      | none => exact ih
      | some r => exact .pure _

theorem evalLine (items : List Node) : Routine fun ev => evalLine ev items := by
  refine .withQueue items (.bind (statements items.length) fun r => ?_)
  split
  · exact .pure _
  · exact .pure _
  · refine .bind (.step .isMore) fun more => ?_
    split
    · exact .fail _
    · exact .pure _

theorem evalGroup (items : List Node) : Routine fun ev => evalGroup ev items := by
  refine .withQueue items (.bind (.step .next?) fun node? => ?_)
  cases node? with
  | none => exact .pure _
  | some node => exact .inner node

theorem instructions (n : Nat) : Routine fun ev => instructions ev n := by
  induction n with
  | zero => exact .pure none
  | succ n ih =>
    refine .bind (.step .next?) fun node? => ?_
    cases node? with
    | none => exact .pure _
    | some node =>
      refine .bind (.inner node) fun r => ?_
      split
      · exact ih
      · exact .pure _
      · exact .fail _

theorem runBlock (items : List Node) : Routine fun ev => runBlock ev items :=
  .withQueue items (instructions items.length)

theorem operands (caller : String) (n : Nat) : Routine fun ev => operands ev caller n := by
  induction n with
  | zero => exact .pure []
  | succ n ih =>
    refine .bind (.step .next?) fun node? => ?_
    cases node? with
    | none => exact .pure _
    | some node => exact .bind (numberOf caller node) fun _ => .bind ih fun _ => .pure _

theorem evalOperands (caller : String) (items : List Node) : Routine fun ev => evalOperands ev caller items :=
  .withQueue items (operands caller items.length)

/-! ## Lines -/

theorem runLine (items : List Node) : Routine fun ev => runLine ev items := by
  refine .bind (.inner (.line items)) fun r => ?_
  split
  · exact .fail _
  · exact .pure _

theorem handleLine (text : String) (items : List Node) : Routine fun ev => handleLine ev text items := by
  refine .bind (.step .get) fun w => ?_
  split
  · next p _ => exact .bind (.step (collect_untraced p text items)) fun _ => .pure _
  · split
    · exact .bind (.step (beginDefinition_untraced items.tail)) fun _ => .pure _
    · exact runLine items

theorem feed (line : String) : Routine fun ev => feed ev line := by
  refine .bind (.step (readLine_untraced line)) fun ⟨text, items?⟩ => ?_
  cases items? with
  | none => exact .pure _
  | some items => exact handleLine text items

/-! ## Procedures and nodes -/

theorem repeatBlock (block : List Node) (n : Nat) : Routine fun ev => repeatBlock ev block n := by
  induction n with
  | zero => exact .pure none
  | succ n ih =>
    refine .bind (runBlock block) fun r => ?_
    cases r with
    | some r => exact .pure _
    | none => exact ih

theorem countBlock (var : String) (block : List Node) (step stop : Float) (n : Nat) (current : Float) :
    Routine fun ev => countBlock ev var block step stop n current := by
  induction n generalizing current with
  | zero => exact .step (by rintro w f ⟨⟩)
  | succ n ih =>
    by_cases h : if 0 < step then current ≤ stop else stop ≤ current
    · simp only [TurtleLogo.countBlock, if_pos h]
      refine .bind (.step (.modify _)) fun _ => .bind (runBlock block) fun r => ?_
      cases r with
      | some r => exact .pure _
      | none => exact ih (current + step)
    · simp only [TurtleLogo.countBlock, if_neg h]
      exact .pure _

theorem builtin (files : FileStore) (name : String) {b : Builtin} (hb : b ≠ .load) :
    Routine fun ev => b.run files ev name := by
  have number := pullNumber name
  have value := pullValue name
  have word := pullWord name
  have list := pullList name
  have act (m : Motion) : Routine fun _ => perform m := .bind (.step (.modify _)) fun _ => .pure _
  have look : Routine fun _ => turtle := .bind (.step .get) fun _ => .pure _
  have done (g : Workspace → Workspace) : Routine fun _ => (modify g >>= fun _ => (Pure.pure none : Exec Result)) :=
    .bind (.step (.modify g)) fun _ => .pure _
  cases b with
  | load => exact absurd rfl hb
  | clearScreen => exact .bind (act _) fun _ => act _
  | home | clean | penDown | penUp => exact act _
  | getXY | xCor | yCor | heading => exact .bind look fun _ => .pure _
  | printProcedures | printNames => exact done _
  | title | endTitle => exact .fail _
  | forward | back | right | left | setHeading => exact .bind number fun _ => act _
  | setXY => exact .bind number fun _ => .bind number fun _ => act _
  | setX | setY => exact .bind look fun _ => .bind number fun _ => act _
  | make => exact .bind word fun _ => .bind value fun _ => done _
  | output => exact .bind value fun _ => .pure _
  | print => exact .bind value fun _ => done _
  | repeatTimes =>
    refine .bind number fun _ => .bind (.step (expectFinite_untraced name _)) fun _ => ?_
    exact .bind list fun block => repeatBlock block _
  | forEach =>
    refine .bind word fun var => .bind number fun _ => .bind (.step (expectFinite_untraced name _)) fun start => ?_
    refine .bind number fun _ => .bind (.step (expectFinite_untraced name _)) fun stop => ?_
    exact .bind list fun block => countBlock var block _ stop _ start
  | list => exact .bind value fun _ => .bind value fun _ => .pure _
  | lput => exact .bind value fun _ => .bind list fun _ => .pure _
  | item =>
    refine .bind number fun _ => .bind value fun _ => ?_
    split
    · exact .pure _
    · exact .fail _

theorem bindInputs (caller : String) (formals : List String) (frame : Table Node) :
    Routine fun ev => bindInputs ev caller formals frame := by
  induction formals generalizing frame with
  | nil => exact .pure frame
  | cons formal formals ih => exact .bind (pullValue caller) fun v => ih (frame.insert formal v)

theorem runBody (name : String) (lines : List (List Node)) : Routine fun ev => runBody ev name lines := by
  induction lines with
  | nil => exact .pure none
  | cons line lines ih =>
    refine .bind (.inner (.line line)) fun r => ?_
    split
    · exact ih
    · exact .pure _
    · exact .fail _

theorem call (files : FileStore) {name : String} (hname : Builtin.ofName? name ≠ some .load) :
    Routine fun ev => call files ev name := by
  unfold TurtleLogo.call
  split
  · next b hb => exact builtin files name (by rintro rfl; exact hname hb)
  · refine .bind (.step .get) fun w => ?_
    split
    · next p _ =>
      refine .bind (bindInputs p.name p.formals {}) fun frame => ?_
      exact .withFrame frame (runBody p.name p.body)
    · exact .fail _

theorem evalBinary (op : Operator) (left right : Node) : Routine fun ev => evalBinary ev op left right := by
  unfold TurtleLogo.evalBinary
  split
  · refine .bind (valueOf op.symbol left) fun _ => .bind (valueOf op.symbol right) fun _ => ?_
    exact .step (.ofExcept _)
  · refine .bind (numberOf op.symbol left) fun _ => .bind (numberOf op.symbol right) fun _ => ?_
    exact .bind (.step (.ofExcept _)) fun _ => .pure _

end Routine

def Node.isLoad : Node → Bool
  | .call name => Builtin.ofName? name == some .load
  | _ => false

theorem Routine.evaluate (files : FileStore) {node : Node} (hnode : node.isLoad = false) :
    Routine fun ev => evaluate files ev node := by
  cases node with
  | num | word | list | output => exact .pure _
  | empty => exact .fail _
  | var name => exact .bind (.step (lookup_untraced name)) fun _ => .pure _
  | call name => exact .call files (by simpa [Node.isLoad] using hnode)
  | line items => exact .evalLine items
  | group items => exact .evalGroup items
  | neg operand => exact .bind (.numberOf _ operand) fun _ => .pure _
  | binary op left right => exact .bind (.evalBinary op left right) fun _ => .pure _
  | nary op items => exact .bind (.evalOperands op.symbol items) fun _ => .pure _

end TurtleLogo

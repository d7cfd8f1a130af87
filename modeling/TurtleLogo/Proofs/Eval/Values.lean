import TurtleLogo.Proofs.Eval.Definitions
import TurtleLogo.Proofs.Eval.Sound

/-!
# What lines leave and give

Every run leaves a sound workspace sound, so variables never hold anything but values, and what a line gives is a value.
The two failures that no program should see never happen: inputs are taken only where a queue is open, and every node
that gets into a queue has a meaning.

* `SoundEvaluator` : what is assumed of the evaluator for the nodes inside; `evaluate_sound` : one node, given one;
* `eval_sound` : every node at every depth;
* `Reachable.sound`, `value_invariant` : every line fed after any others.
-/

namespace TurtleLogo

open Exec

/-! ## Checks and operators -/

section Steps

variable {k : Nat}

theorem expectValue_ensures (caller : String) (node : Node) {r : Result} (h : IsResult r) :
    Ensures k Node.IsValue (expectValue caller node r) := by
  unfold expectValue
  split
  · exact .fail trivial
  · exact .fail trivial
  · next v hv => exact .pure (h.of_other hv)

theorem expectNumber_ensures (caller : String) (v : Node) : Ensures k (fun _ => True) (expectNumber caller v) := by
  unfold expectNumber
  split
  · exact .pure trivial
  · exact .fail trivial

theorem expectWord_ensures (caller : String) (v : Node) : Ensures k (fun _ => True) (expectWord caller v) := by
  unfold expectWord
  split
  · exact .pure trivial
  · exact .fail trivial

theorem expectList_ensures (caller : String) {v : Node} (h : v.IsValue) :
    Ensures k (fun items => ∀ n ∈ items, n.IsElement) (expectList caller v) := by
  unfold expectList
  split
  · exact .pure h
  · exact .fail trivial

theorem expectFinite_ensures (caller : String) (x : Float) : Ensures k (fun _ => True) (expectFinite caller x) := by
  unfold expectFinite
  split
  · exact .pure trivial
  · exact .fail trivial

theorem resolve_ensures (files : FileStore) (name : String) : Ensures k (fun _ => True) (resolve files name) := by
  unfold resolve
  split
  · exact .pure trivial
  · exact .fail trivial

theorem lookup_ensures (name : String) : Ensures k Node.IsValue (lookup name) := by
  refine .bind .get fun w hw => ?_
  split
  · next hv => exact .pure (hw.lookup? hv)
  · exact .fail trivial

theorem perform_ensures (m : Motion) : Ensures k IsResult (perform m) :=
  .bind (.modify (fun _ hw => { hw with }) fun _ => rfl) fun _ _ => .pure .nothing

theorem turtle_ensures : Ensures k (fun _ => True) turtle := .bind .get fun _ _ => .pure trivial

theorem compareValues_ensures (op : Operator) (a b : Node) :
    Ensures k Node.IsValue (ofExcept (compareValues op a b)) := by
  unfold compareValues
  split
  · exact .fail trivial
  · exact .fail trivial
  · exact .pure trivial
  · exact .pure trivial

theorem arithmetic_ensures (op : Operator) (x y : Float) :
    Ensures k (fun _ => True) (ofExcept (arithmetic op x y)) := by
  cases op with
  | plus | minus | times => exact .pure trivial
  | divide =>
    unfold arithmetic
    dsimp only
    split
    · exact .fail trivial
    · exact .pure trivial
  | _ =>
    unfold arithmetic
    dsimp only
    split
    · exact .fail trivial
    · split
      · exact .fail trivial
      · exact .pure trivial

/-! ## Reading and defining -/

theorem Failure.Ordinary.inLine {e : Failure} (h : e.Ordinary) (text : String) (continued : Bool) :
    (e.inLine text continued).Ordinary := by
  cases e with
  | fault f =>
    have hcause := Fault.cause_locate { f with diagnosis := f.diagnosis && !continued } text none none
    exact Eq.subst (motive := Cause.Ordinary) hcause.symm h
  | crash c => trivial

theorem Misspelling.ordinary_failure (e : Misspelling) (line : String) : (e.failure line).Ordinary := by
  cases e <;> trivial

theorem ParseError.ordinary_failure (e : ParseError) (tokens : List Token) : (e.failure tokens).Ordinary := by
  cases e <;> trivial

theorem readLine_ensures (line : String) :
    Ensures k (fun r => ∀ items ∈ r.2, ∀ n ∈ items, n.IsRead) (readLine line) := by
  intro w hw hk
  have hheld : ∀ held, ({ w with continuation := held } : Workspace).Sound := fun _ => { hw with }
  unfold readLine
  dsimp only
  split
  · next e _ => exact ⟨hheld {}, hk, (e.ordinary_failure line).inLine _ _⟩
  · split
    -- what a line that goes on holds are tokens, so the workspace has no new nodes to vouch for
    · exact ⟨hheld _, hk, fun _ h => nomatch h⟩
    · split
      · next e _ => exact ⟨hheld {}, hk, (e.ordinary_failure _).inLine _ _⟩
      · next items hitems =>
        refine ⟨hheld {}, hk, ?_⟩
        rintro _ ⟨⟩
        exact parseLine_gives _ items hitems

theorem formals_ordinary {inputs : List Node} {cause : Cause} (h : formals inputs = .error cause) :
    cause.Ordinary := by
  fun_induction formals inputs with
  | case1 => cases h
  | case2 name rest ih =>
    cases hrest : formals rest with
    | ok names =>
      rw [hrest] at h
      cases h
    | error cause' =>
      rw [hrest] at h
      cases h
      exact ih hrest
  | case3 =>
    cases h
    trivial

theorem titled_ensures (title : List Node) : Ensures k Procedure.Runs (ofExcept (titled title)) := by
  unfold titled
  split
  · exact .fail trivial
  · next inputs =>
    split
    · exact .fail trivial
    · cases hf : formals inputs with
      | ok names => exact .pure fun _ hline => nomatch hline
      | error cause => exact .fail (formals_ordinary hf)
  · exact .fail trivial

theorem beginDefinition_ensures (title : List Node) : Ensures k (fun _ => True) (beginDefinition title) := by
  refine .bind (titled_ensures title) fun p hp => .modify (fun w hw => ?_) fun _ => rfl
  exact { hw with definition := by rintro _ ⟨⟩; exact hp }

theorem define_ensures {p : Procedure} (h : p.Runs) : Ensures k (fun _ => True) (define p) := by
  unfold define
  split
  · exact .fail trivial
  · refine .modify (fun w hw => { hw with procedures := fun entry he => ?_ }) fun _ => rfl
    rcases Table.mem_entries_insert he with rfl | he
    · exact h
    · exact hw.procedures entry he

theorem Procedure.Runs.addLine {p : Procedure} (h : p.Runs) {items : List Node} (hitems : ∀ n ∈ items, n.Runs)
    (text : String) : (p.addLine items text).Runs := by
  intro line hline
  rcases List.mem_append.mp hline with hline | hline
  · exact h line hline
  · rw [List.mem_singleton.mp hline]
    exact hitems

theorem collect_ensures {p : Procedure} (h : p.Runs) (text : String) {items : List Node}
    (hitems : ∀ n ∈ items, n.Runs) : Ensures k (fun _ => True) (collect p text items) := by
  unfold collect
  split
  · exact .fail trivial
  · split
    · refine .bind (.modify (fun w hw => ?_) fun _ => rfl) fun _ _ => define_ensures h
      exact { hw with definition := nofun }
    · split
      · exact .pure trivial
      · refine .modify (fun w hw => ?_) fun _ => rfl
        exact { hw with definition := by rintro _ ⟨⟩; exact h.addLine hitems _ }

/-! ## Leaving a file -/

theorem inFile_ensures {body : Exec Unit} (h : Ensures k (fun _ => True) body) :
    Ensures k (fun _ => True) (inFile body) := by
  intro w hw hk
  have hends := h { w with continuation := {} } { hw with } hk
  unfold inFile
  split
  · next hf =>
    rw [hf] at hends
    exact ⟨{ hends.sound with definition := nofun }, hends.queues, hends.outcome⟩
  · next hf =>
    rw [hf] at hends
    exact ⟨{ hends.sound with }, hends.queues, hends.outcome⟩

theorem closeFile_ensures (path : String) : Ensures k (fun _ => True) (closeFile path) := by
  intro w hw hk
  unfold closeFile
  split
  · exact ⟨{ hw with definition := nofun }, hk, trivial⟩
  · exact ⟨hw, hk, trivial⟩

end Steps

/-- What is assumed of the evaluator for the nodes inside: it evaluates lines anywhere, and other nodes where a queue is
open. -/
structure SoundEvaluator (ev : Evaluator) : Prop where
  line : ∀ {k : Nat} {items : List Node}, (∀ n ∈ items, n.Runs) → Ensures k IsResult (ev (.line items))
  node : ∀ {k : Nat} {n : Node}, n.Runs → Ensures (k + 1) IsResult (ev n)

section Sound

variable {ev : Evaluator} (hev : SoundEvaluator ev) {k : Nat}

include hev

/-! ## Inputs and sequences -/

theorem valueOf_ensures (caller : String) {node : Node} (h : node.Runs) :
    Ensures (k + 1) Node.IsValue (valueOf ev caller node) :=
  .bind (hev.node h) fun _ hr => expectValue_ensures caller node hr

theorem numberOf_ensures (caller : String) {node : Node} (h : node.Runs) :
    Ensures (k + 1) (fun _ => True) (numberOf ev caller node) :=
  .bind (valueOf_ensures hev caller h) fun v _ => expectNumber_ensures caller v

theorem pullValue_ensures (caller : String) : Ensures (k + 1) Node.IsValue (pullValue ev caller) := by
  rw [pullValue_eq]
  exact .bind (.nextInput caller) fun _ hnode => valueOf_ensures hev caller hnode

theorem pullNumber_ensures (caller : String) : Ensures (k + 1) (fun _ => True) (pullNumber ev caller) :=
  .bind (pullValue_ensures hev caller) fun v _ => expectNumber_ensures caller v

theorem pullWord_ensures (caller : String) : Ensures (k + 1) (fun _ => True) (pullWord ev caller) :=
  .bind (pullValue_ensures hev caller) fun v _ => expectWord_ensures caller v

theorem pullList_ensures (caller : String) :
    Ensures (k + 1) (fun items => ∀ n ∈ items, n.IsElement) (pullList ev caller) :=
  .bind (pullValue_ensures hev caller) fun _ hv => expectList_ensures caller hv

theorem statements_ensures (n : Nat) : Ensures (k + 1) IsResult (statements ev n) := by
  induction n with
  | zero => exact .pure .nothing
  | succ n ih =>
    refine .bind .next? fun node? hnode => ?_
    cases node? with
    | none => exact .pure .nothing
    | some node =>
      refine .bind (hev.node (hnode node rfl)) fun r hr => ?_
      cases r with
      | none => exact ih
      | some r => exact .pure hr

theorem evalLine_ensures {items : List Node} (h : ∀ n ∈ items, n.Runs) :
    Ensures k IsResult (evalLine ev items) := by
  refine .withQueue h (.bind (statements_ensures hev items.length) fun r hr => ?_)
  split
  · exact .pure .nothing
  · exact .pure hr
  · refine .bind .isMore fun more _ => ?_
    split
    · exact .fail trivial
    · exact .pure hr

theorem evalGroup_ensures {items : List Node} (h : ∀ n ∈ items, n.Runs) :
    Ensures k IsResult (evalGroup ev items) := by
  refine .withQueue h (.bind .next? fun node? hnode => ?_)
  cases node? with
  | none => exact .pure .nothing
  | some node => exact hev.node (hnode node rfl)

theorem instructions_ensures (n : Nat) : Ensures (k + 1) IsResult (instructions ev n) := by
  induction n with
  | zero => exact .pure .nothing
  | succ n ih =>
    refine .bind .next? fun node? hnode => ?_
    cases node? with
    | none => exact .pure .nothing
    | some node =>
      refine .bind (hev.node (hnode node rfl)) fun r hr => ?_
      split
      · exact ih
      · exact .pure hr
      · exact .fail trivial

/-- The items of a list have not been evaluated, but they can be. -/
theorem runBlock_ensures {items : List Node} (h : ∀ n ∈ items, n.IsElement) :
    Ensures k IsResult (runBlock ev items) :=
  .withQueue (fun n hn => (h n hn).runs) (instructions_ensures hev items.length)

theorem operands_ensures (caller : String) (n : Nat) : Ensures (k + 1) (fun _ => True) (operands ev caller n) := by
  induction n with
  | zero => exact .pure trivial
  | succ n ih =>
    refine .bind .next? fun node? hnode => ?_
    cases node? with
    | none => exact .pure trivial
    | some node =>
      refine .bind (numberOf_ensures hev caller (hnode node rfl)) fun x _ => ?_
      exact .bind ih fun xs _ => .pure trivial

theorem evalOperands_ensures (caller : String) {items : List Node} (h : ∀ n ∈ items, n.Runs) :
    Ensures k (fun _ => True) (evalOperands ev caller items) :=
  .withQueue h (operands_ensures hev caller items.length)

/-! ## Lines -/

/-- A line that is run gives a value or nothing: an output has no place there. -/
theorem runLine_ensures {items : List Node} (h : ∀ n ∈ items, n.Runs) :
    Ensures k (fun r => ∀ v ∈ r, v.IsValue) (runLine ev items) := by
  refine .bind (hev.line h) fun r hr => ?_
  split
  · exact .fail trivial
  · next hother =>
    refine .pure fun v hv => ?_
    rw [Option.mem_def.mp hv] at hr hother
    exact hr.of_other fun u hu => hother u (congrArg some hu)

theorem handleLine_ensures (text : String) {items : List Node} (h : ∀ n ∈ items, n.Runs) :
    Ensures k (fun r => ∀ v ∈ r, v.IsValue) (handleLine ev text items) := by
  have hnone : Ensures k (fun r : Result => ∀ v ∈ r, v.IsValue) (pure none) := .pure fun _ hv => nomatch hv
  refine .bind .get fun w hw => ?_
  split
  · next p hp => exact .bind (collect_ensures (hw.definition p hp) text h) fun _ _ => hnone
  · split
    · exact .bind (beginDefinition_ensures items.tail) fun _ _ => hnone
    · exact runLine_ensures hev h

theorem feed_ensures (line : String) : Ensures k (fun r => ∀ v ∈ r, v.IsValue) (feed ev line) := by
  refine .bind (readLine_ensures line) fun ⟨text, items?⟩ hitems => ?_
  cases items? with
  | none => exact .pure fun _ hv => nomatch hv
  | some items => exact handleLine_ensures hev text fun n hn => (hitems items rfl n hn).runs

/-! ## Files -/

theorem feedLineOf_ensures (path : String) (number : Nat) (line : String) :
    Ensures k (fun r => ∀ v ∈ r, v.IsValue) (feedLineOf ev path number line) := by
  intro w hw hk
  have hends := feed_ensures hev line w hw hk
  unfold feedLineOf
  split
  · next h =>
    rw [h] at hends
    exact ⟨hends.sound, hends.queues, hends.outcome⟩
  · exact hends

theorem feedLines_ensures (path : String) (number : Nat) (lines : List String) :
    Ensures k (fun _ => True) (feedLines ev path number lines) := by
  induction lines generalizing number with
  | nil => exact .pure trivial
  | cons line lines ih =>
    refine .bind (feedLineOf_ensures hev path number line) fun r _ => ?_
    cases r with
    | some v => exact .bind (.print v.display) fun _ _ => ih (number + 1)
    | none => exact ih (number + 1)

theorem feedText_ensures (path : String) (text : FileText) : Ensures k (fun _ => True) (feedText ev path text) := by
  cases text with
  | lines lines => exact feedLines_ensures hev path 1 lines
  | broken lines => exact .bind (feedLines_ensures hev path 1 lines) fun _ _ => .fail trivial

theorem load_ensures (files : FileStore) (name : String) : Ensures k (fun _ => True) (load files ev name) := by
  refine .bind (resolve_ensures files name) fun path _ => ?_
  exact .bind (inFile_ensures (feedText_ensures hev path (files.read path))) fun _ _ => closeFile_ensures path

/-! ## Built-in procedures -/

theorem repeatBlock_ensures {block : List Node} (h : ∀ n ∈ block, n.IsElement) (n : Nat) :
    Ensures k IsResult (repeatBlock ev block n) := by
  induction n with
  | zero => exact .pure .nothing
  | succ n ih =>
    refine .bind (runBlock_ensures hev h) fun r hr => ?_
    cases r with
    | some r => exact .pure hr
    | none => exact ih

theorem countBlock_ensures (var : String) {block : List Node} (h : ∀ n ∈ block, n.IsElement) (step stop : Float)
    (n : Nat) (current : Float) : Ensures k IsResult (countBlock ev var block step stop n current) := by
  induction n generalizing current with
  | zero => exact .crash _
  | succ n ih =>
    rw [countBlock]
    by_cases hmore : if 0 < step then current ≤ stop else stop ≤ current
    · rw [if_pos hmore]
      refine .bind (.assign var (v := .num current) trivial) fun _ _ => ?_
      refine .bind (runBlock_ensures hev h) fun r hr => ?_
      cases r with
      | some r => exact .pure hr
      | none => exact ih (current + step)
    · rw [if_neg hmore]
      exact .pure .nothing

/-- Every built-in procedure gives nothing, a value, or the output of one. -/
theorem builtin_ensures (files : FileStore) (name : String) (b : Builtin) :
    Ensures (k + 1) IsResult (b.run files ev name) := by
  have number := pullNumber_ensures hev (k := k) name
  have value := pullValue_ensures hev (k := k) name
  have word := pullWord_ensures hev (k := k) name
  have list := pullList_ensures hev (k := k) name
  cases b with
  | forward | back | right | left | setHeading => exact .bind number fun _ _ => perform_ensures _
  | clearScreen => exact .bind (perform_ensures .home) fun _ _ => perform_ensures .clear
  | home | clean | penDown | penUp => exact perform_ensures _
  | setXY => exact .bind number fun _ _ => .bind number fun _ _ => perform_ensures _
  | setX | setY => exact .bind turtle_ensures fun _ _ => .bind number fun _ _ => perform_ensures _
  | getXY =>
    refine .bind turtle_ensures fun t _ => .pure (.value ?_)
    exact List.forall_mem_cons.mpr ⟨.num _, List.forall_mem_singleton.mpr (.num _)⟩
  | xCor | yCor | heading => exact .bind turtle_ensures fun t _ => .pure (.value trivial)
  | make =>
    refine .bind word fun var _ => .bind value fun v hv => ?_
    exact .bind (.assign var hv) fun _ _ => .pure .nothing
  | output => exact .bind value fun _ hv => .pure (.output hv)
  | repeatTimes =>
    refine .bind number fun x _ => .bind (expectFinite_ensures name x) fun count _ => ?_
    exact .bind list fun block hblock => repeatBlock_ensures hev hblock _
  | forEach =>
    refine .bind word fun var _ => ?_
    refine .bind number fun x _ => .bind (expectFinite_ensures name x) fun start _ => ?_
    refine .bind number fun y _ => .bind (expectFinite_ensures name y) fun stop _ => ?_
    exact .bind list fun block hblock => countBlock_ensures hev var hblock _ stop _ start
  | list =>
    refine .bind value fun first hfirst => .bind value fun second hsecond => .pure (.value ?_)
    exact List.forall_mem_cons.mpr ⟨hfirst.isElement, List.forall_mem_singleton.mpr hsecond.isElement⟩
  | lput =>
    refine .bind value fun item hitem => .bind list fun items hitems => .pure (.value ?_)
    exact List.forall_mem_append.mpr ⟨hitems, List.forall_mem_singleton.mpr hitem.isElement⟩
  | item =>
    refine .bind number fun index _ => .bind value fun thing hthing => ?_
    split
    · next hv => exact .pure (.value (item?_isValue hthing hv))
    · exact .fail trivial
  | print => exact .bind value fun v _ => .bind (.print (printed v)) fun _ _ => .pure .nothing
  | printProcedures | printNames =>
    exact .bind (.printAll _) fun _ _ => .pure .nothing
  | load =>
    refine .bind word fun file _ => ?_
    exact .bind (β := Option Node) (load_ensures hev files file) fun _ _ => .pure .nothing
  | title | endTitle => exact .fail trivial

/-! ## Procedures and nodes -/

theorem bindInputs_ensures (caller : String) (formals : List String) {frame : Table Node} (h : frame.HoldsValues) :
    Ensures (k + 1) Table.HoldsValues (bindInputs ev caller formals frame) := by
  induction formals generalizing frame with
  | nil => exact .pure h
  | cons formal formals ih => exact .bind (pullValue_ensures hev caller) fun v hv => ih (h.insert formal hv)

/-- A call gives what a line of the body outputs, and no longer as an output. -/
theorem runBody_ensures (name : String) {lines : List (List Node)} (h : ∀ line ∈ lines, ∀ n ∈ line, n.Runs) :
    Ensures k IsResult (runBody ev name lines) := by
  induction lines with
  | nil => exact .pure .nothing
  | cons line lines ih =>
    obtain ⟨hline, hlines⟩ := List.forall_mem_cons.mp h
    refine .bind (hev.line hline) fun r hr => ?_
    split
    · exact ih hlines
    · exact .pure (.value hr.of_output)
    · exact .fail trivial

theorem callProcedure_ensures {p : Procedure} (h : p.Runs) : Ensures (k + 1) IsResult (callProcedure ev p) :=
  .bind (bindInputs_ensures hev p.name p.formals nofun) fun _ hframe =>
    .withFrame hframe (runBody_ensures hev p.name h)

theorem call_ensures (files : FileStore) (name : String) : Ensures (k + 1) IsResult (call files ev name) := by
  unfold call
  split
  · exact builtin_ensures hev files name _
  · refine .bind .get fun w hw => ?_
    split
    · next p hp => exact callProcedure_ensures hev (hw.procedures _ (Table.mem_entries_of_find? hp))
    · exact .fail trivial

theorem evalBinary_ensures (op : Operator) {left right : Node} (hleft : left.Runs) (hright : right.Runs) :
    Ensures (k + 1) Node.IsValue (evalBinary ev op left right) := by
  unfold evalBinary
  split
  · refine .bind (valueOf_ensures hev op.symbol hleft) fun a _ => ?_
    refine .bind (valueOf_ensures hev op.symbol hright) fun b _ => ?_
    exact compareValues_ensures op a b
  · refine .bind (numberOf_ensures hev op.symbol hleft) fun a _ => ?_
    refine .bind (numberOf_ensures hev op.symbol hright) fun b _ => ?_
    exact .bind (arithmetic_ensures op a b) fun x _ => .pure trivial

theorem evaluate_sound (files : FileStore) : SoundEvaluator (evaluate files ev) where
  line h := evalLine_ensures hev h
  node h := by
    cases h with
    | num x => exact .pure (.value trivial)
    | word s => exact .pure (.value trivial)
    | list h => exact .pure (.value h)
    | var name => exact .bind (lookup_ensures name) fun _ hv => .pure (.value hv)
    | call name => exact call_ensures hev files name
    | group h => exact evalGroup_ensures hev h
    | neg h => exact .bind (numberOf_ensures hev _ h) fun _ _ => .pure (.value trivial)
    | binary hleft hright =>
      exact .bind (evalBinary_ensures hev _ hleft hright) fun _ hv => .pure (.value hv)
    | nary h => exact .bind (evalOperands_ensures hev _ h) fun _ _ => .pure (.value trivial)

omit hev in
/-- **Every evaluation is sound**: at any depth, of any node that can be evaluated. -/
theorem eval_sound (files : FileStore) (depth : Nat) : SoundEvaluator (eval files depth) := by
  induction depth with
  | zero => exact { line := fun _ => .crash _, node := fun _ => .crash _ }
  | succ depth ih => exact evaluate_sound ih files

end Sound

/-! ## Line after line -/

/-- Feeding lines leads to sound workspaces only, with no queue open. -/
theorem Reachable.sound {depth : Nat} {w : Workspace} (h : Reachable depth w) : w.Sound ∧ w.pending.length = 0 := by
  induction h with
  | fresh drawing =>
    exact
      ⟨{ globals := nofun, frames := nofun, pending := nofun, procedures := nofun, definition := nofun }, rfl⟩
  | feed files line _ ih =>
    have hends := feed_ensures (eval_sound files depth) line _ ih.1 ih.2
    exact ⟨hends.sound, hends.queues⟩

/-- **Variables have values, and so do lines.** After any lines, whatever became of them and whatever files they loaded,
each global variable has a number, a word or a list, in which only what can be read and such values occur, and no line,
output or empty node at any depth. Any line fed then gives nothing or such a value, or fails, but never because no line is
being evaluated or because a node has no meaning. -/
theorem value_invariant {depth : Nat} {w : Workspace} (h : Reachable depth w) :
    (∀ entry ∈ w.globals.entries, entry.2.IsValue ∧ entry.2.Plain) ∧
    ∀ (files : FileStore) (line : String),
      (∀ v, (feed (eval files depth) line w).1 = .ok (some v) → v.IsValue ∧ v.Plain) ∧
      ∀ f, (feed (eval files depth) line w).1 = .error (.fault f) → f.cause ≠ .noLine ∧ f.cause ≠ .meaningless := by
  obtain ⟨hw, hk⟩ := h.sound
  refine ⟨fun entry he => ⟨hw.globals entry he, (hw.globals entry he).plain⟩, fun files line => ?_⟩
  have houtcome := (feed_ensures (eval_sound files depth) line w hw hk).outcome
  constructor
  · intro v hv
    rw [hv] at houtcome
    have hvalue : v.IsValue := houtcome v rfl
    exact ⟨hvalue, hvalue.plain⟩
  · intro f hf
    rw [hf] at houtcome
    exact houtcome.ne

/-- A list of a word and a list of code is kept in a variable, and a line gives it back. Another line lacks an input. -/
theorem value_invariant_list_of_code :
    let v : Node := .list [.word "B", .list [.call "HOME"]]
    let w := (feed (eval {} 4) "MAKE \"A LIST \"B [HOME]" {}).2
    (w.globals.entries = [("A", v)] ∧ (feed (eval {} 4) ":A" w).1 = .ok (some v) ∧ v.IsValue ∧ v.Plain) ∧
      ∃ f, (feed (eval {} 4) "LIST :A" w).1 = .error (.fault f) ∧ f.cause ≠ .noLine ∧ f.cause ≠ .meaningless := by
  intro v w
  have hmake : parseText "MAKE \"A LIST \"B [HOME]" =
      .ok [.call "MAKE", .word "A", .call "LIST", .word "B", .list [.call "HOME"]] := by
    have ht : tokenize "MAKE \"A LIST \"B [HOME]" = .ok [⟨.name "MAKE", 0⟩, ⟨.blank, 4⟩, ⟨.word "A", 5⟩, ⟨.blank, 7⟩,
        ⟨.name "LIST", 8⟩, ⟨.blank, 12⟩, ⟨.word "B", 13⟩, ⟨.blank, 15⟩, ⟨.opener .square, 16⟩, ⟨.name "HOME", 17⟩,
        ⟨.closer .square, 21⟩, ⟨.lineEnd, 22⟩] := by decide +kernel
    exact parseText_of ht (by cbv)
  have hvar : parseText ":A" = .ok [.var "A"] := by
    have ht : tokenize ":A" = .ok [⟨.var "A", 0⟩, ⟨.lineEnd, 2⟩] := by decide +kernel
    exact parseText_of ht (by cbv)
  have hlist : parseText "LIST :A" = .ok [.call "LIST", .var "A"] := by
    have ht : tokenize "LIST :A" = .ok [⟨.name "LIST", 0⟩, ⟨.blank, 4⟩, ⟨.var "A", 5⟩, ⟨.lineEnd, 7⟩] := by
      decide +kernel
    exact parseText_of ht (by cbv)
  have hw : w = { globals := ⟨[("A", v)]⟩ } := by
    have hgo : goesOn "MAKE \"A LIST \"B [HOME]" = false := by decide +kernel
    have hfed := feed_alone (eval {} 4) (w := {}) rfl hgo
    rw [hmake] at hfed
    exact congrArg Prod.snd hfed
  have hgives : (feed (eval {} 4) ":A" { globals := ⟨[("A", v)]⟩ }).1 = .ok (some v) := by
    rw [feed_alone _ rfl (by decide +kernel), hvar]
    rfl
  have hfails : (feed (eval {} 4) "LIST :A" { globals := ⟨[("A", v)]⟩ }).1 =
      .error (.fault (.running (.moreInputs "LIST"))) := by
    rw [feed_alone _ rfl (by decide +kernel), hlist]
    rfl
  have hreachable : Reachable 4 w := .feed {} _ (.fresh {})
  obtain ⟨-, hfed⟩ := value_invariant hreachable
  rw [hw] at hfed ⊢
  exact ⟨⟨rfl, hgives, (hfed {} ":A").1 v hgives⟩, _, hfails, (hfed {} "LIST :A").2 _ hfails⟩

end TurtleLogo

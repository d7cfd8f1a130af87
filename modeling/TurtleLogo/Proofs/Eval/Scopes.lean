import TurtleLogo.Proofs.Eval.Keeps

/-!
# Variables of the running procedures

Every running procedure has its own variables, and only those of the innermost one are ever given another value. So what
a procedure runs cannot touch the variables of its callers, and no procedure gets variables other than its inputs.

* `Scoped w w'` : how the frames of `w'` may differ from those of `w`;
* `scoped_stable` : every step of the evaluator is so;
* `names_of_bindInputs` : the frame that a call begins with has the procedure's inputs;
* `scope_isolation` : every evaluation leaves the callers' variables alone.
-/

namespace TurtleLogo

open Exec

/-- Every frame below the innermost one is as it was, and that one has the same names in the same order. -/
structure Scoped (w w' : Workspace) : Prop where
  below : w'.frames.tail = w.frames.tail
  names : w'.frames.head?.map Table.names = w.frames.head?.map Table.names

theorem Scoped.of_eq {w w' : Workspace} (h : w'.frames = w.frames) : Scoped w w' where
  below := by rw [h]
  names := by rw [h]

theorem Scoped.trans {u v w : Workspace} (h : Scoped u v) (h' : Scoped v w) : Scoped u w where
  below := h'.below.trans h.below
  names := h'.names.trans h.names

theorem Scoped.frames_eq {w w' : Workspace} (h : Scoped w w') {frame : Table Node} {outer : List (Table Node)}
    (hw : w.frames = frame :: outer) : ∃ frame', w'.frames = frame' :: outer ∧ frame'.names = frame.names := by
  have hb := h.below
  have hn := h.names
  rw [hw] at hb hn
  cases hw' : w'.frames with
  | nil => rw [hw'] at hn; cases hn
  | cons frame' outer' =>
    rw [hw'] at hb hn
    exact ⟨frame', by rw [show outer' = outer from hb], Option.some.inj hn⟩

/-- An assignment touches the innermost frame only, and only if that has the name already. -/
theorem scoped_assign (w : Workspace) (name : String) (value : Node) : Scoped w (w.assign name value) := by
  unfold Workspace.assign
  split
  · next frame outer hw =>
    split
    · next hc =>
      have hnames : (frame.insert name value).names = frame.names := by
        rw [Table.names_insert, if_pos (Table.contains_iff_mem_names.mp hc)]
      exact { below := by rw [hw]; rfl
              names := by rw [hw]; exact congrArg some hnames }
    · exact .of_eq rfl
  · exact .of_eq rfl

theorem scoped_stable : Stable Scoped where
  refl _ := .of_eq rfl
  trans := Scoped.trans
  next _ := .of_eq rfl
  queue _ h := ⟨h.below, h.names⟩
  frame _ h := .of_eq h.below
  assign := scoped_assign
  draw _ _ := .of_eq rfl
  print _ _ := .of_eq rfl
  continuation _ _ := .of_eq rfl
  title _ := .of_eq rfl
  addLine _ _ _ := .of_eq rfl
  drop _ := .of_eq rfl
  define _ := .of_eq rfl

theorem eval_scoped (files : FileStore) (depth : Nat) (node : Node) : Keeps Scoped (eval files depth node) :=
  eval_keeps scoped_stable files depth node

/-! ## The inputs of a call -/

/-- Inputs are bound in the order of the title, and a repeated one keeps its first place. The statement is about the loop
of `List.eraseDups`, which holds the names so far in reverse. -/
theorem names_of_bindInputs_loop (ev : Evaluator) (caller : String) (formals : List String) :
    ∀ {frame locals : Table Node} {w w' : Workspace},
      bindInputs ev caller formals frame w = (.ok locals, w') →
      locals.names = List.eraseDupsBy.loop (· == ·) formals frame.names.reverse := by
  induction formals with
  | nil =>
    intro frame locals w w' h
    cases h
    simp [List.eraseDupsBy.loop]
  | cons formal formals ih =>
    intro frame locals w w' h
    rw [bindInputs, bind_apply] at h
    rcases hp : pullValue ev caller w with ⟨e | v, u⟩
    · rw [hp] at h
      cases h
    · rw [hp] at h
      have hseen : (frame.names.reverse.any fun name => formal == name) = decide (formal ∈ frame.names) := by
        rw [List.any_reverse, List.any_beq, List.contains_eq_mem]
      rw [ih h, List.eraseDupsBy.loop, Table.names_insert, hseen]
      by_cases hm : formal ∈ frame.names <;> simp [hm]

theorem names_of_bindInputs {ev : Evaluator} {caller : String} {formals : List String} {locals : Table Node}
    {w w' : Workspace} (h : bindInputs ev caller formals {} w = (.ok locals, w')) :
    locals.names = formals.eraseDups := names_of_bindInputs_loop ev caller formals h

/-- **Scope isolation.** However an evaluation ends, every frame below the innermost one is as it was, and that one has
the same names in the same order. So once a call has its inputs, running its body leaves all variables of its callers
alone; and whatever lines run there, the procedure's own variables are just its inputs. -/
theorem scope_isolation (files : FileStore) (depth : Nat) :
    (∀ (node : Node) (w : Workspace), Scoped w (eval files depth node w).2) ∧
    (∀ (p : Procedure) (w bound : Workspace) (locals : Table Node),
      bindInputs (eval files depth) p.name p.formals {} w = (.ok locals, bound) →
      (callProcedure (eval files depth) p w).2.frames = bound.frames ∧
      ∀ lines, ∃ own, own.names = p.formals.eraseDups ∧
        (runBody (eval files depth) p.name lines
          { bound with frames := locals :: bound.frames, pending := [] :: bound.pending }).2.frames =
            own :: bound.frames) := by
  have body (name : String) (lines : List (List Node)) : Keeps Scoped (runBody (eval files depth) name lines) :=
    runBody_keeps scoped_stable (eval_scoped files depth) name lines
  refine ⟨eval_scoped files depth, fun p w bound locals h => ⟨?_, fun lines => ?_⟩⟩
  · have hcall : callProcedure (eval files depth) p w =
        withFrame locals (runBody (eval files depth) p.name p.body) bound := by
      rw [callProcedure, bind_apply, h]
    rw [hcall]
    exact (body p.name p.body _).below
  · have hbody := body p.name lines
      { bound with frames := locals :: bound.frames, pending := [] :: bound.pending }
    obtain ⟨own, hframes, hnames⟩ := hbody.frames_eq rfl
    exact ⟨own, hnames.trans (names_of_bindInputs h), hframes⟩

/-- A procedure with a repeated input assigns a variable that its caller also has. -/
theorem scope_isolation_same_name :
    let p : Procedure := { name := "P", formals := ["A", "B", "A"], body := [[.call "MAKE", .word "A", .word "Z"]] }
    let w : Workspace := { frames := [⟨[("A", .word "X")]⟩], pending := [[.word "U", .word "V", .var "A"]] }
    (callProcedure (eval {} 3) p w).2.frames = [⟨[("A", .word "X")]⟩] ∧
      ∃ own, own.names = ["A", "B"] ∧
        (runBody (eval {} 3) "P" p.body
          { w with frames := ⟨[("A", .word "X"), ("B", .word "V")]⟩ :: w.frames, pending := [[], []] }).2.frames =
            [own, ⟨[("A", .word "X")]⟩] := by
  intro p w
  obtain ⟨callers, callee⟩ := (scope_isolation {} 3).2 p w { w with pending := [[]] } _ rfl
  exact ⟨callers, callee p.body⟩

end TurtleLogo

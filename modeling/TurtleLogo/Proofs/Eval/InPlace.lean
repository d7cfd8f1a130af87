import TurtleLogo.Proofs.Eval.Depth
import TurtleLogo.Proofs.Eval.Remainder

/-!
# A call in place of its body

A call opens a frame for the procedure's variables and a queue that its lines cannot reach. For a procedure without
inputs both are empty, and no program can tell that they are there: variables are looked up and assigned as if there
were no frame, and every line takes its inputs from a queue of its own. So calling the procedure is running its lines.

* `Workspace.inCall` : a workspace as it is seen inside such a call;
* `insideCall` : a workspace and the same inside a call are alike;
* `runLines` : lines one after the other, `runBody_inCall` : the same lines as the body of a procedure;
* `eval_call_line` : a line that only calls the procedure;
* `call_in_place` : the call does what the lines do.
-/

namespace TurtleLogo

open Exec

/-! ## Inside a call -/

/-- The workspace inside a call of a procedure without inputs: beneath everything there are a frame without variables,
the empty queue of the call, and what is left of the line that calls. -/
def Workspace.inCall (w : Workspace) : Workspace :=
  { w with frames := w.frames ++ [{}], pending := w.pending ++ [[], []] }

theorem locals_inCall (w : Workspace) : w.inCall.locals = w.locals := by
  simp only [Workspace.locals, Workspace.inCall]
  cases w.frames <;> rfl

theorem assign_inCall (w : Workspace) (name : String) (value : Node) :
    w.inCall.assign name value = (w.assign name value).inCall := by
  unfold Workspace.assign
  cases hf : w.frames with
  | nil => simp only [Workspace.inCall, hf, List.nil_append]; rfl
  | cons frame outer =>
    simp only [Workspace.inCall, hf, List.cons_append]
    split <;> rfl

theorem tail_append_of_length {α : Type} {l : List α} {n : Nat} (h : l.length = n + 1) (l' : List α) :
    (l ++ l').tail = l.tail ++ l' := List.tail_append_of_ne_nil (List.ne_nil_of_length_eq_add_one h)

/-- A workspace with just the queues and frames that were opened since, and the same inside a call. With no queue open
the two tell apart that an input is missing, so outcomes are due only with one open. -/
def insideCall : Likeness where
  rel q f w v := w.pending.length = q ∧ w.frames.length = f ∧ v = w.inCall
  due q _ := 0 < q
  due_success h := h
  due_opened _ := Nat.succ_pos _
  locals := by rintro q f w v ⟨-, -, rfl⟩; exact locals_inCall w
  globals := by rintro q f w v ⟨-, -, rfl⟩; rfl
  procedures := by rintro q f w v ⟨-, -, rfl⟩; rfl
  definition := by rintro q f w v ⟨-, -, rfl⟩; rfl
  continuation := by rintro q f w v ⟨-, -, rfl⟩; rfl
  position := by rintro q f w v ⟨-, -, rfl⟩; exact ⟨rfl, rfl, rfl⟩
  assign := by
    rintro q f w v name value ⟨hq, hf, rfl⟩
    rw [assign_inCall, pending_assign, length_frames_assign]
    exact ⟨hq, hf, rfl⟩
  draw := by rintro q f w v m ⟨hq, hf, rfl⟩; exact ⟨hq, hf, rfl⟩
  print := by rintro q f w v text ⟨hq, hf, rfl⟩; exact ⟨hq, hf, rfl⟩
  setContinuation := by rintro q f w v c ⟨hq, hf, rfl⟩; exact ⟨hq, hf, rfl⟩
  setDefinition := by rintro q f w v d ⟨hq, hf, rfl⟩; exact ⟨hq, hf, rfl⟩
  setProcedures := by rintro q f w v t ⟨hq, hf, rfl⟩; exact ⟨hq, hf, rfl⟩
  openQueue := by rintro q f w v items ⟨hq, hf, rfl⟩; exact ⟨congrArg Nat.succ hq, hf, rfl⟩
  closeQueue := by
    rintro q f w v ⟨hq, hf, rfl⟩
    refine ⟨by rw [List.length_tail, hq]; rfl, hf, ?_⟩
    simp only [Workspace.inCall, tail_append_of_length hq]
  openFrame := by
    rintro q f w v locals ⟨hq, hf, rfl⟩
    exact ⟨congrArg Nat.succ hq, congrArg Nat.succ hf, rfl⟩
  closeFrame := by
    rintro q f w v ⟨hq, hf, rfl⟩
    refine ⟨by rw [List.length_tail, hq]; rfl, by rw [List.length_tail, hf]; rfl, ?_⟩
    simp only [Workspace.inCall, tail_append_of_length hq, tail_append_of_length hf]
  next := by
    rintro q f w v ⟨hq, hf, rfl⟩
    obtain ⟨queue, outer, hp⟩ := List.exists_cons_of_length_eq_add_one hq
    cases queue <;> simp_all [next?, Workspace.inCall]
  more := by
    rintro q f w v ⟨hq, hf, rfl⟩
    obtain ⟨queue, outer, hp⟩ := List.exists_cons_of_length_eq_add_one hq
    cases queue <;> simp_all [isMore, Workspace.inCall]
  input := by
    rintro q f w v caller ⟨hq, hf, rfl⟩ hd
    obtain ⟨queue, outer, hp⟩ := List.exists_cons_of_length_eq_add_one (hq.trans (Nat.succ_pred_eq_of_pos hd).symm)
    cases queue <;> simp_all [nextInput, Workspace.inCall, fail, stop]

theorem Workspace.isIdle_iff {w : Workspace} : w.isIdle = true ↔ w.frames = [] ∧ w.pending = [] := by
  simp only [Workspace.isIdle, Bool.and_eq_true, List.isEmpty_iff]

theorem eval_line_inCall (files : FileStore) (depth : Nat) (items : List Node) {w : Workspace}
    (hw : w.isIdle = true) :
    eval files depth (.line items) w.inCall =
      ((eval files depth (.line items) w).1, (eval files depth (.line items) w).2.inCall) := by
  obtain ⟨hf, hp⟩ := Workspace.isIdle_iff.mp hw
  cases depth with
  | zero => rfl
  | succ depth =>
    have hev (q f : Nat) (node : Node) : insideCall.Same q f (eval files depth node) :=
      Likeness.eval_same files depth q f node
    have hrel : insideCall.rel 0 0 w w.inCall := ⟨congrArg List.length hp, congrArg List.length hf, rfl⟩
    obtain ⟨hresult, -, -, hspace⟩ := Likeness.Same.evalLine_at hev items hrel (Nat.succ_pos 0)
    exact Prod.ext hresult hspace

/-! ## Lines and bodies -/

/-- Evaluates lines one after the other, up to the first that fails or gives something. -/
def runLines (ev : Evaluator) : List (List Node) → Exec Result
  | [] => pure none
  | line :: lines => do
    match ← ev (.line line) with
    | none => runLines ev lines
    | some r => pure (some r)

theorem runLines_deepens {ev ev' : Evaluator} (hev : ∀ node, Deepens (ev node) (ev' node))
    (lines : List (List Node)) : Deepens (runLines ev lines) (runLines ev' lines) := by
  induction lines with
  | nil => exact .refl _
  | cons line lines ih =>
    refine .bind (hev (.line line)) fun r => ?_
    cases r with
    | none => exact ih
    | some r => exact .refl _

/-- What a procedure gives, from what its lines give: an output's value, and nothing else. -/
def bodyOutcome (name : String) : Except Failure Result → Except Failure Result
  | .ok (some (.output v)) => .ok (some v)
  | .ok (some v) => .error (.fault (.running (.unusedValueIn v.source name)))
  | r => r

/-- Lines as the body of a procedure, inside its call. -/
theorem runBody_inCall (files : FileStore) (depth : Nat) (name : String) (lines : List (List Node))
    {w : Workspace} (hw : w.isIdle = true) :
    runBody (eval files depth) name lines w.inCall =
        (bodyOutcome name (runLines (eval files depth) lines w).1,
          (runLines (eval files depth) lines w).2.inCall) ∧
      (runLines (eval files depth) lines w).2.isIdle = true := by
  induction lines generalizing w with
  | nil => exact ⟨rfl, hw⟩
  | cons line lines ih =>
    have hidle := (eval_disciplined files depth (.line line) w).isIdle hw
    rw [runBody, runLines, bind_apply, bind_apply, eval_line_inCall files depth line hw]
    rcases hr : eval files depth (.line line) w with ⟨e | _ | v, u⟩
    · rw [hr] at hidle
      exact ⟨rfl, hidle⟩
    · rw [hr] at hidle
      exact ih hidle
    · rw [hr] at hidle
      cases v <;> exact ⟨rfl, hidle⟩

/-! ## Calls -/

theorem call_of_find? {files : FileStore} {ev : Evaluator} {name : String} {w : Workspace} {p : Procedure}
    (hname : Builtin.isName name = false) (hp : w.procedures.find? name = some p) :
    call files ev name w = callProcedure ev p w := by
  have hb : Builtin.ofName? name = none := by simpa [Builtin.isName] using hname
  unfold call
  rw [hb]
  simp only [bind_apply, Exec.get, hp]

/-- Closing the queue of a line that has used up its only expression. -/
theorem lineOutcome_withPending_nil {u : Workspace} (hu : u.pending = []) (r : Except Failure Result) :
    lineOutcome (r, u.withPending [[]]) = (r, u) := by
  have hclose : (u.withPending [[]]).withPending (u.withPending [[]]).pending.tail = u := by
    change u.withPending [] = u
    rw [← hu]
    rfl
  have hmore : (u.withPending [[]]).hasMore = false := rfl
  rcases r with e | _ | v <;> simp [lineOutcome, hclose, hmore]

theorem statements_singleton {ev : Evaluator} {w u : Workspace} {node : Node} {outer : List (List Node)}
    {r : Except Failure Result} (hw : w.pending = [node] :: outer)
    (he : ev node (w.withPending ([] :: outer)) = (r, u)) : statements ev 1 w = (r, u) := by
  rw [statements_cons ev 0 hw, he]
  rcases r with e | _ | v <;> rfl

theorem withFrame_of {α : Type} {locals : Table Node} {body : Exec α} {w u : Workspace} {r : Except Failure α}
    (h : body { w with frames := locals :: w.frames, pending := [] :: w.pending } = (r, u)) :
    withFrame locals body w = (r, { u with frames := u.frames.tail, pending := u.pending.tail }) := by
  unfold withFrame around
  rw [h]

/-- A call of a procedure without inputs by a line that has nothing else on it. -/
theorem callProcedure_of_idle (files : FileStore) (depth : Nat) {w : Workspace} {p : Procedure}
    (hw : w.isIdle = true) (hf : p.formals = []) :
    callProcedure (eval files depth) p (w.withPending [[]]) =
      (bodyOutcome p.name (runLines (eval files depth) p.body w).1,
        (runLines (eval files depth) p.body w).2.withPending [[]]) := by
  obtain ⟨hframes, hpending⟩ := Workspace.isIdle_iff.mp hw
  obtain ⟨hbody, hidle⟩ := runBody_inCall files depth p.name p.body hw
  obtain ⟨hframes', hpending'⟩ := Workspace.isIdle_iff.mp hidle
  have henter : { w.withPending [[]] with frames := {} :: w.frames, pending := [[], []] } = w.inCall := by
    simp only [Workspace.withPending, Workspace.inCall, hframes, hpending, List.nil_append]
  have hleave (u : Workspace) (hu : u.frames = []) (hq : u.pending = []) :
      { u.inCall with frames := u.inCall.frames.tail, pending := u.inCall.pending.tail } = u.withPending [[]] := by
    simp only [Workspace.withPending, Workspace.inCall, hu, hq, List.nil_append, List.tail_cons]
  have hopen : callProcedure (eval files depth) p (w.withPending [[]]) =
      withFrame {} (runBody (eval files depth) p.name p.body) (w.withPending [[]]) := by
    rw [callProcedure, hf]
    rfl
  rw [← henter] at hbody
  rw [hopen, withFrame_of hbody, hleave _ hframes' hpending']

/-- A line that only calls a procedure without inputs, in terms of the lines of its body, which are evaluated two levels
further down. -/
theorem eval_call_line (files : FileStore) (depth : Nat) {w : Workspace} {name : String} {p : Procedure}
    (hw : w.isIdle = true) (hname : Builtin.isName name = false) (hp : w.procedures.find? name = some p)
    (hf : p.formals = []) :
    eval files (depth + 2) (.line [.call name]) w =
      (bodyOutcome p.name (runLines (eval files depth) p.body w).1, (runLines (eval files depth) p.body w).2) := by
  have hpending := (Workspace.isIdle_iff.mp hw).2
  have hidle := (Workspace.isIdle_iff.mp (runBody_inCall files depth p.name p.body hw).2).2
  have hcall : eval files (depth + 1) (.call name) (w.withPending [[]]) =
      (bodyOutcome p.name (runLines (eval files depth) p.body w).1,
        (runLines (eval files depth) p.body w).2.withPending [[]]) := by
    change call files (eval files depth) name (w.withPending [[]]) = _
    have hp' : (w.withPending [[]]).procedures.find? name = some p := hp
    rw [call_of_find? hname hp', callProcedure_of_idle files depth hw hf]
  change evalLine (eval files (depth + 1)) [.call name] w = _
  rw [evalLine_apply, hpending, List.length_singleton, statements_singleton (w := w.withPending [[.call name]]) rfl hcall]
  exact lineOutcome_withPending_nil hidle _

/-- **A call in place of its body.** Where nothing is open, a line that only calls a procedure without inputs leaves the
workspace that the lines of the procedure leave when they are evaluated there one after the other, up to the first that
fails or gives something. The call gives nothing if they all do, fails as they fail, gives the value that they output,
and fails if they give a value, since nothing can use it; unless it is nested too deeply. -/
theorem call_in_place (files : FileStore) (depth : Nat) {w : Workspace} {name : String} {p : Procedure}
    (hw : w.isIdle = true) (hname : Builtin.isName name = false) (hp : w.procedures.find? name = some p)
    (hf : p.formals = [])
    (hdepth : (eval files depth (.line [.call name]) w).1 ≠ .error (.crash .stackOverflow)) :
    (eval files depth (.line [.call name]) w).2 = (runLines (eval files depth) p.body w).2 ∧
    match (runLines (eval files depth) p.body w).1 with
    | .ok none => (eval files depth (.line [.call name]) w).1 = .ok none
    | .error e => (eval files depth (.line [.call name]) w).1 = .error e
    | .ok (some (.output v)) => (eval files depth (.line [.call name]) w).1 = .ok (some v)
    | .ok (some v) => ∃ fault, (eval files depth (.line [.call name]) w).1 = .error (.fault fault) ∧
        fault.kind = .arity ∧
        fault.message.plain = "You don't say what to do with " ++ v.source ++ " in " ++ p.name := by
  obtain _ | _ | depth := depth
  · exact absurd rfl hdepth
  · exact absurd rfl hdepth
  · have hcall := eval_call_line files depth hw hname hp hf
    have hlines : runLines (eval files (depth + 2)) p.body w = runLines (eval files depth) p.body w := by
      refine runLines_deepens (eval_deepens files (Nat.le_add_right depth 2)) p.body w fun h => hdepth ?_
      rw [hcall, h]
      rfl
    rw [hcall, hlines]
    refine ⟨rfl, ?_⟩
    rcases (runLines (eval files depth) p.body w).1 with e | _ | v
    · rfl
    · rfl
    · cases v with
      | output v => rfl
      | _ =>
        refine ⟨_, rfl, rfl, ?_⟩
        simp [Fault.message, Fault.running, Cause.message, Text.Message.plain, String.join]

/-- A procedure that assigns a variable in its first line and outputs it in its second. -/
theorem call_in_place_make_output :
    let body : List (List Node) := [[.call "MAKE", .word "A", .word "B"], [.call "OP", .var "A"]]
    let p : Procedure := { name := "P", formals := [], body }
    let w : Workspace := { procedures := ⟨[("P", p)]⟩ }
    (eval {} 5 (.line [.call "P"]) w).2 = (runLines (eval {} 5) p.body w).2 ∧
      (runLines (eval {} 5) p.body w).1 = .ok (some (.output (.word "B"))) ∧
      (eval {} 5 (.line [.call "P"]) w).1 = .ok (some (.word "B")) := by
  intro body p w
  have hok : (eval {} 5 (.line [.call "P"]) w).1.isOk = true := by decide +kernel +revert
  have hdepth : (eval {} 5 (.line [.call "P"]) w).1 ≠ .error (.crash .stackOverflow) := by
    intro h
    rw [h] at hok
    cases hok
  have hlines : (runLines (eval {} 5) body w).1 = .ok (some (.output (.word "B"))) := rfl
  obtain ⟨hspace, hresult⟩ := call_in_place {} 5 (p := p) rfl (by decide) rfl rfl hdepth
  rw [hlines] at hresult
  exact ⟨hspace, hlines, hresult⟩

end TurtleLogo
